import CodeCatalog.Proofs.Docstring.Outline
import CodeCatalog.Registry.Declare

/-!
# Merging

What declarations, merged one after the other, make of an entity to which nothing was written. Which
of them is canonical and which of them documents the entity is said of the list of them alone.
-/
namespace CodeCatalog

/-! ## What a policy picks -/

namespace CanonicalPolicy

variable (policy : CanonicalPolicy) (ds : List Declaration)

/-- The documented declaration whose site the policy makes canonical, if there is one. -/
def preferred : Option Declaration :=
  match policy with
  | latestDocumented => (ds.filter (·.isDocumented)).getLast?
  | firstDocumented => (ds.filter (·.isDocumented)).head?
  | firstDiscovered => none

/-- The declaration whose documentation the policy keeps. -/
def documenting : Option Declaration :=
  match policy with
  | latestDocumented => (ds.filter (·.isDocumented)).getLast?
  | firstDocumented | firstDiscovered => (ds.filter (·.isDocumented)).head?

/-- The site that the policy makes canonical. -/
def canonicalSite : Option Location :=
  ((policy.preferred ds).or ds.head?).map (·.site)

/-- The documentation that the policy keeps. -/
def documentation : Docstring :=
  ((policy.documenting ds).bind (·.docstring)).elim {} .read

variable {policy ds} {d : Declaration}

theorem documenting_snoc_of_not_documented (h : d.isDocumented = false) :
    policy.documenting (ds ++ [d]) = policy.documenting ds := by
  cases policy <;> simp [documenting, h]

/-- The first documentation counts whatever the policy is, and later on the latest may. -/
theorem documenting_snoc_of_documented (h : d.isDocumented = true)
    (hd : ds.filter (·.isDocumented) = [] ∨ policy = latestDocumented) :
    policy.documenting (ds ++ [d]) = some d := by
  rcases hd with hnil | rfl
  · cases policy <;> simp [documenting, List.filter_append, hnil, h]
  · simp [documenting, List.filter_append, h]

theorem documenting_snoc_of_ne (hne : ds.filter (·.isDocumented) ≠ [])
    (hpolicy : policy ≠ latestDocumented) :
    policy.documenting (ds ++ [d]) = policy.documenting ds := by
  cases policy with
  | latestDocumented => exact absurd rfl hpolicy
  | firstDocumented | firstDiscovered =>
      simp only [documenting, List.filter_append, List.head?_append, List.head?_eq_some_head hne,
        Option.some_or]

end CanonicalPolicy

/-! ## One more declaration -/

namespace Entity

variable {e : Entity} {d : Declaration}

@[simp] theorem ledger_document (e : Entity) (d : Declaration) : (e.document d).ledger = e.ledger := by
  unfold document
  split
  · split <;> rfl
  · rfl

theorem attributes_document (h : d.isDocumented = true) :
    (e.document d).attributes = e.attributes.setDocstring (d.docstring.elim {} .read) := by
  unfold document
  cases hd : d.docstring with
  | none => simp [Declaration.isDocumented, hd] at h
  | some raw => simp [h]

theorem document_of_not_documented (h : d.isDocumented = false) : e.document d = e := by
  unfold document
  split
  · simp [h]
  · rfl

@[simp] theorem ledger_merge (e : Entity) (d : Declaration) :
    (e.merge d).ledger = e.ledger.record d.site d.isDocumented := by
  unfold merge
  simp only
  split
  · exact ledger_document _ d
  · rfl

/-- Documentation counts if the site is now the canonical one, or if there has been none. -/
theorem attributes_merge (e : Entity) (d : Declaration) :
    (e.merge d).attributes =
      (if d.isDocumented = true ∧ ((e.ledger.record d.site d.isDocumented).lastIsCanonical = true ∨
          e.attributes.docstring.isEmpty = true)
        then e.attributes.setDocstring (d.docstring.elim {} .read) else e.attributes).overwrite d := by
  have hsite : (e.addSite d.site d.isDocumented).attributes = e.attributes := rfl
  unfold merge
  simp only [addSite, Bool.or_eq_true]
  cases hdoc : d.isDocumented with
  | true =>
      simp only [true_and]
      split
      · rw [attributes_document hdoc]
      · rfl
  | false =>
      rw [document_of_not_documented hdoc]
      simp

end Entity

namespace AttributeTable

variable (t : AttributeTable) (d : Declaration)

@[simp] theorem docstring_overwrite : (t.overwrite d).docstring = t.docstring := by
  unfold overwrite
  cases d.source <;> cases d.signature <;> rfl

@[simp] theorem source_overwrite :
    (t.overwrite d).source = (d.source.map Snippet.dedent).or t.source := by
  unfold overwrite
  cases d.source <;> cases d.signature <;> rfl

@[simp] theorem signature_overwrite : (t.overwrite d).signature = d.signature.or t.signature := by
  unfold overwrite
  cases d.source <;> cases d.signature <;> rfl

@[simp] theorem source_setDocstring (s : Docstring) : (t.setDocstring s).source = t.source := rfl

@[simp] theorem signature_setDocstring (s : Docstring) :
    (t.setDocstring s).signature = t.signature := rfl

end AttributeTable

namespace Ledger

theorem lastIsCanonical_record (l : Ledger) (site : Location) (documented : Bool) :
    (l.record site documented).lastIsCanonical = true ↔
      (choose l.policy l.chosen l.sites.length documented).getD 0 = l.sites.length := by
  simp [lastIsCanonical, canonicalIndex, record]

end Ledger

/-! ## Any number of declarations -/

/-- An entity holds what declarations, one after the other, have given it. -/
structure Entity.Merged (policy : CanonicalPolicy) (ds : List Declaration) (e : Entity) : Prop where
  policy_eq : e.ledger.policy = policy
  sites : e.ledger.sites = ds.map (·.site)
  chosen : e.ledger.chosen.map (ds[·]?) = (policy.preferred ds).map some
  docstring : e.attributes.docstring = policy.documentation ds
  source : e.attributes.source = (ds.filterMap (·.source)).getLast?.map Snippet.dedent
  signature : e.attributes.signature = (ds.filterMap (·.signature)).getLast?

namespace Entity.Merged

variable {policy : CanonicalPolicy} {ds : List Declaration} {d : Declaration} {e e' : Entity}

theorem canonical (h : Merged policy ds e) : e.ledger.canonical = policy.canonicalSite ds := by
  have hchosen := h.chosen
  unfold Ledger.canonical Ledger.canonicalIndex CanonicalPolicy.canonicalSite
  rw [h.sites]
  cases hc : e.ledger.chosen with
  | none =>
      rw [hc] at hchosen
      have hp : policy.preferred ds = none := by simpa using hchosen.symm
      rw [hp]
      cases ds <;> simp
  | some i =>
      rw [hc, Option.map_some] at hchosen
      obtain ⟨d, hd, hi⟩ := Option.map_eq_some_iff.mp hchosen.symm
      rw [hd]
      have hne : ds ≠ [] := by rintro rfl; simp at hi
      simp [hne, ← hi]

theorem blank (hattributes : e.attributes = {}) (hledger : e.ledger = { policy }) :
    Merged policy [] e where
  policy_eq := by rw [hledger]
  sites := by rw [hledger]; rfl
  chosen := by rw [hledger]; cases policy <;> rfl
  docstring := by rw [hattributes]; cases policy <;> rfl
  source := by rw [hattributes]; rfl
  signature := by rw [hattributes]; rfl

theorem congr (h : Merged policy ds e) (hattributes : e'.attributes = e.attributes)
    (hledger : e'.ledger = e.ledger) : Merged policy ds e' where
  policy_eq := by rw [hledger]; exact h.policy_eq
  sites := by rw [hledger]; exact h.sites
  chosen := by rw [hledger]; exact h.chosen
  docstring := by rw [hattributes]; exact h.docstring
  source := by rw [hattributes]; exact h.source
  signature := by rw [hattributes]; exact h.signature

theorem isEmpty_docstring (h : Merged policy ds e) :
    e.attributes.docstring.isEmpty = true ↔ ds.filter (·.isDocumented) = [] := by
  rw [h.docstring, CanonicalPolicy.documentation]
  constructor
  · intro hempty
    by_contra hne
    obtain ⟨d, hd⟩ : ∃ d, policy.documenting ds = some d := by
      cases policy
      · exact ⟨_, List.getLast?_eq_some_getLast hne⟩
      · exact ⟨_, List.head?_eq_some_head hne⟩
      · exact ⟨_, List.head?_eq_some_head hne⟩
    have hmem : d ∈ ds.filter (·.isDocumented) := by
      cases policy
      · exact List.mem_of_getLast? hd
      · exact List.mem_of_head? hd
      · exact List.mem_of_head? hd
    have hdoc := (List.mem_filter.mp hmem).2
    rw [Declaration.isDocumented] at hdoc
    cases hraw : d.docstring with
    | none => simp [hraw] at hdoc
    | some raw =>
        rw [hd, Option.bind_some, hraw, Option.elim_some, Docstring.isEmpty_read] at hempty
        simp [hraw, hempty] at hdoc
  · intro hnil
    cases policy <;> simp [CanonicalPolicy.documenting, hnil, Docstring.isEmpty]

theorem chosen_snoc (h : Merged policy ds e) (d : Declaration) :
    (e.merge d).ledger.chosen.map ((ds ++ [d])[·]?) = (policy.preferred (ds ++ [d])).map some := by
  have hlen : e.ledger.sites.length = ds.length := by rw [h.sites, List.length_map]
  have hold : e.ledger.chosen.map ((ds ++ [d])[·]?) = (policy.preferred ds).map some := by
    rw [← h.chosen]
    refine Option.map_congr fun i hi => ?_
    have hi' := h.chosen
    rw [hi, Option.map_some] at hi'
    obtain ⟨d', _, hd'⟩ := Option.map_eq_some_iff.mp hi'.symm
    exact List.getElem?_append_left (List.getElem?_eq_some_iff.mp hd'.symm).1
  rw [ledger_merge, Ledger.record]
  simp only [h.policy_eq, hlen]
  cases hdoc : d.isDocumented with
  | false =>
      have hp : policy.preferred (ds ++ [d]) = policy.preferred ds := by
        cases policy <;> simp [CanonicalPolicy.preferred, hdoc]
      rw [hp, ← hold]
      cases policy <;> rfl
  | true =>
      cases policy with
      | latestDocumented => simp [Ledger.choose, CanonicalPolicy.preferred, hdoc]
      | firstDocumented =>
          simp only [Ledger.choose, CanonicalPolicy.preferred, List.filter_append] at hold ⊢
          cases hc : e.ledger.chosen with
          | none =>
              rw [hc] at hold
              have hnil : ds.filter (·.isDocumented) = [] := by simpa using hold.symm
              simp [hnil, hdoc]
          | some i =>
              rw [hc] at hold
              obtain ⟨d', hd', _⟩ := Option.map_eq_some_iff.mp hold.symm
              rw [Option.some_or, List.head?_append, hd', Option.some_or, hold, hd']
      | firstDiscovered =>
          simp only [Ledger.choose, CanonicalPolicy.preferred] at hold ⊢
          exact hold

/-- Where something was documented before, the site of one more documented declaration is canonical
only as the latest one. -/
theorem lastIsCanonical_iff (h : Merged policy ds e) (hne : ds.filter (·.isDocumented) ≠ [])
    (site : Location) :
    (e.ledger.record site true).lastIsCanonical = true ↔ policy = .latestDocumented := by
  have hpos : 0 ≠ ds.length := by
    intro h0
    rw [List.length_eq_zero_iff.mp h0.symm] at hne
    exact hne rfl
  have hchosen := h.chosen
  rw [Ledger.lastIsCanonical_record, h.policy_eq, h.sites, List.length_map]
  cases policy with
  | latestDocumented => simp [Ledger.choose]
  | firstDocumented =>
      rw [CanonicalPolicy.preferred, List.head?_eq_some_head hne] at hchosen
      obtain ⟨i, hi, hd⟩ := Option.map_eq_some_iff.mp hchosen
      have hlt := (List.getElem?_eq_some_iff.mp hd).1
      simp [Ledger.choose, hi, Nat.ne_of_lt hlt]
  | firstDiscovered =>
      have hnone : e.ledger.chosen = none := by simpa [CanonicalPolicy.preferred] using hchosen
      simp [Ledger.choose, hnone, hpos]

theorem docstring_snoc (h : Merged policy ds e) (d : Declaration) :
    (e.merge d).attributes.docstring = policy.documentation (ds ++ [d]) := by
  rw [attributes_merge, AttributeTable.docstring_overwrite, CanonicalPolicy.documentation]
  cases hdoc : d.isDocumented with
  | false =>
      rw [if_neg (by simp), CanonicalPolicy.documenting_snoc_of_not_documented hdoc]
      exact h.docstring
  | true =>
      by_cases hnil : ds.filter (·.isDocumented) = []
      · rw [if_pos ⟨rfl, Or.inr (h.isEmpty_docstring.mpr hnil)⟩,
          CanonicalPolicy.documenting_snoc_of_documented hdoc (Or.inl hnil)]
        rfl
      · by_cases hpolicy : policy = .latestDocumented
        · rw [if_pos ⟨rfl, Or.inl ((h.lastIsCanonical_iff hnil d.site).mpr hpolicy)⟩,
            CanonicalPolicy.documenting_snoc_of_documented hdoc (Or.inr hpolicy)]
          rfl
        · rw [if_neg, CanonicalPolicy.documenting_snoc_of_ne hnil hpolicy]
          · exact h.docstring
          · rintro ⟨_, hlast | hempty⟩
            · exact hpolicy ((h.lastIsCanonical_iff hnil d.site).mp hlast)
            · exact hnil (h.isEmpty_docstring.mp hempty)

theorem snoc (h : Merged policy ds e) (d : Declaration) :
    Merged policy (ds ++ [d]) (e.merge d) where
  policy_eq := by
    rw [ledger_merge, Ledger.policy_record]
    exact h.policy_eq
  sites := by
    rw [ledger_merge, Ledger.sites_record, h.sites, List.map_append]
    rfl
  chosen := h.chosen_snoc d
  docstring := h.docstring_snoc d
  source := by
    rw [attributes_merge, AttributeTable.source_overwrite, apply_ite AttributeTable.source,
      AttributeTable.source_setDocstring, ite_self, h.source]
    cases hs : d.source <;> simp [hs]
  signature := by
    rw [attributes_merge, AttributeTable.signature_overwrite, apply_ite AttributeTable.signature,
      AttributeTable.signature_setDocstring, ite_self, h.signature]
    cases hs : d.signature <;> simp [hs]

end Entity.Merged

end CodeCatalog
