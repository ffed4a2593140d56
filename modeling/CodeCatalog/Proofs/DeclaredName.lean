import CodeCatalog.Proofs.Path
import CodeCatalog.Registry.Resolve

/-!
# Reading names

The names that can be read are those made of parts by the grammar, and reading them gives these parts.
Any other name is refused.
-/
namespace CodeCatalog.DeclaredName

variable {s s' t leaf name : Text} {outer ss parts : List Text} {anchored anchored' : Bool}
  {n : DeclaredName}

/-! ## Parts -/

/-- A separator after a text that does not end in half of one separates. -/
theorem segments_append_separator (h : s.getLast? ≠ some ':') (t : Text) :
    segments (s ++ nameSeparator ++ t) = segments s ++ segments t := by
  fun_induction segments s with
  | case1 => rfl
  | case2 s ih =>
      have hs : s.getLast? ≠ some ':' := by
        cases s with
        | nil => simp
        | cons c s => simpa [List.getLast?_cons_cons] using h
      simpa [segments] using ih hs
  | case3 c s hc ih =>
      have hs : s.getLast? ≠ some ':' := by
        cases s with
        | nil => simp
        | cons d s => simpa [List.getLast?_cons_cons] using h
      have hpair : ∀ u, c = ':' → s ++ nameSeparator ++ t = ':' :: u → False := by
        intro u hcolon hu
        cases s with
        | nil => simp [hcolon] at h
        | cons d s =>
            rw [List.cons_append, List.cons_append, List.cons.injEq] at hu
            exact hc s hcolon (by rw [hu.1])
      rw [List.cons_append, List.cons_append, segments.eq_3 _ _ hpair, ih hs]
      cases hsegs : segments s with
      | nil => exact absurd hsegs (segments_ne_nil s)
      | cons a as => rfl

theorem segments_of_not_infix (h : ¬ nameSeparator <:+: t) : segments t = [t] := by
  fun_induction segments t with
  | case1 => rfl
  | case2 t ih => exact absurd (List.prefix_append nameSeparator t).isInfix h
  | case3 c t hc ih =>
      rw [ih fun hin => h (List.infix_cons hin)]
      rfl

/-- Parts that can be told apart when they are joined: none has a separator in it, and none but the
last ends in half of one. -/
structure Separable (ss : List Text) : Prop where
  ne_nil : ss ≠ []
  not_infix : ∀ s ∈ ss, ¬ nameSeparator <:+: s
  getLast?_ne : ∀ s ∈ ss.dropLast, s.getLast? ≠ some ':'

theorem separable_singleton_iff : Separable [s] ↔ ¬ nameSeparator <:+: s := by
  constructor
  · intro h
    exact h.not_infix s (by simp)
  · intro h
    exact ⟨by simp, by simpa using h, by simp⟩

theorem separable_cons_cons_iff :
    Separable (s :: s' :: ss) ↔
      ¬ nameSeparator <:+: s ∧ s.getLast? ≠ some ':' ∧ Separable (s' :: ss) := by
  constructor
  · rintro ⟨_, hin, hlast⟩
    rw [List.dropLast_cons_cons, List.forall_mem_cons] at hlast
    rw [List.forall_mem_cons] at hin
    exact ⟨hin.1, hlast.1, by simp, hin.2, hlast.2⟩
  · rintro ⟨hs, hcolon, _, hin, hlast⟩
    refine ⟨by simp, List.forall_mem_cons.mpr ⟨hs, hin⟩, ?_⟩
    rw [List.dropLast_cons_cons, List.forall_mem_cons]
    exact ⟨hcolon, hlast⟩

/-- Such parts are found again. -/
theorem Separable.segments_intercalate (h : Separable ss) :
    segments (nameSeparator.intercalate ss) = ss := by
  induction ss with
  | nil => exact absurd rfl h.ne_nil
  | cons s ss ih =>
      cases ss with
      | nil => simpa using segments_of_not_infix (separable_singleton_iff.mp h)
      | cons s' ss =>
          obtain ⟨hs, hlast, hrest⟩ := separable_cons_cons_iff.mp h
          rw [List.intercalate_cons_cons, segments_append_separator hlast,
            segments_of_not_infix hs, ih hrest]
          rfl

/-- Without an empty part in front there is no separator at the start. -/
theorem Separable.not_prefix (h : Separable ss) (hne : ∀ s ∈ ss, s ≠ []) :
    ¬ nameSeparator <+: nameSeparator.intercalate ss := by
  rintro ⟨u, hu⟩
  have hsegs := h.segments_intercalate
  rw [← hu] at hsegs
  exact hne [] (hsegs ▸ List.mem_cons_self) rfl

theorem prefix_intercalate_cons (s : Text) (ss : List Text) :
    s <+: nameSeparator.intercalate (s :: ss) := by
  cases ss with
  | nil => simp
  | cons s' ss =>
      rw [List.intercalate_cons_cons, List.append_assoc]
      exact List.prefix_append _ _

/-- The parts that a text is cut into can be told apart. A separator is cut off where it first starts,
so no character before it makes another one. -/
theorem separable_segments (t : Text) : Separable (segments t) := by
  fun_induction segments t with
  | case1 => exact separable_singleton_iff.mpr (by decide)
  | case2 t ih =>
      cases hsegs : segments t with
      | nil => exact absurd hsegs (segments_ne_nil t)
      | cons s ss => exact separable_cons_cons_iff.mpr ⟨by decide, by simp, hsegs ▸ ih⟩
  | case3 c t hc ih =>
      have ht := intercalate_segments t
      cases hsegs : segments t with
      | nil => exact absurd hsegs (segments_ne_nil t)
      | cons s ss =>
          rw [hsegs] at ih ht
          have hno : ¬ nameSeparator <:+: c :: s := by
            rw [List.infix_cons_iff, not_or]
            refine ⟨?_, ih.not_infix s (by simp)⟩
            rintro ⟨v, hv⟩
            obtain ⟨u, hu⟩ := prefix_intercalate_cons s ss
            rw [ht] at hu
            cases hv
            exact hc _ rfl hu.symm
          rw [List.modifyHead_cons]
          cases ss with
          | nil => exact separable_singleton_iff.mpr hno
          | cons s' ss =>
              obtain ⟨_, hlast, hrest⟩ := separable_cons_cons_iff.mp ih
              refine separable_cons_cons_iff.mpr ⟨hno, ?_, hrest⟩
              cases s with
              | nil =>
                  intro hcolon
                  rw [List.intercalate_cons_cons] at ht
                  exact hc _ (by simpa using hcolon) ht.symm
              | cons d s => rwa [List.getLast?_cons_cons]

/-- A text is cut into the one list of parts that gives the text when it is joined and can then be
told apart. -/
theorem segments_eq_iff : segments t = ss ↔ Separable ss ∧ nameSeparator.intercalate ss = t := by
  constructor
  · rintro rfl
    exact ⟨separable_segments t, intercalate_segments t⟩
  · rintro ⟨h, rfl⟩
    exact h.segments_intercalate

/-! ## The grammar of names -/

/-- A name is made of parts: they can be told apart, and none is empty. They stand behind an anchor if
the name starts with a separator, and without one if it does not. -/
structure MadeOf (name : Text) (anchored : Bool) (parts : List Text) : Prop where
  anchored_iff : anchored = true ↔ nameSeparator <+: name
  joined : name = (if anchored then nameSeparator else []) ++ nameSeparator.intercalate parts
  separable : Separable parts
  ne_nil : ∀ s ∈ parts, s ≠ []

theorem takeAnchor_eq_iff :
    takeAnchor name = (anchored, t) ↔
      (anchored = true ↔ nameSeparator <+: name) ∧
        name = (if anchored then nameSeparator else []) ++ t := by
  unfold takeAnchor
  split
  · rename_i u
    cases anchored <;> simp [nameSeparator, eq_comm]
  · rename_i hno
    have hanchor : ¬ nameSeparator <+: name := by
      rintro ⟨u, rfl⟩
      exact hno u rfl
    cases anchored <;> simp [hanchor, eq_comm]

theorem madeOf_iff :
    MadeOf name anchored parts ↔ anchored = (takeAnchor name).1 ∧
      parts = segments (takeAnchor name).2 ∧ [] ∉ parts := by
  constructor
  · rintro ⟨hanchor, hjoined, hsep, hne⟩
    rw [takeAnchor_eq_iff.mpr ⟨hanchor, hjoined⟩]
    exact ⟨rfl, (segments_eq_iff.mpr ⟨hsep, rfl⟩).symm, fun hmem => hne [] hmem rfl⟩
  · rintro ⟨rfl, rfl, hno⟩
    obtain ⟨hanchor, hjoined⟩ := takeAnchor_eq_iff.mp (Prod.eta (takeAnchor name)).symm
    obtain ⟨hsep, hrest⟩ := segments_eq_iff.mp (Eq.refl (segments (takeAnchor name).2))
    refine ⟨hanchor, by rwa [hrest], hsep, ?_⟩
    rintro s hs rfl
    exact hno hs

/-- A name is read as the parts that it is made of. -/
theorem read?_eq_some_iff :
    read? name = some n ↔ MadeOf name n.anchored (n.outer ++ [n.leaf]) := by
  obtain ⟨anchored, outer, leaf⟩ := n
  rw [madeOf_iff]
  unfold read?
  simp only
  obtain hnil | ⟨ss, s, hsegs⟩ := List.eq_nil_or_concat (segments (takeAnchor name).2)
  · exact absurd hnil (segments_ne_nil _)
  · rw [hsegs, List.concat_eq_append, List.dropLast_concat, List.getLastD_concat]
    split
    · rename_i hmem
      refine iff_of_false nofun ?_
      rintro ⟨-, hparts, hno⟩
      exact hno (hparts ▸ hmem)
    · rename_i hno
      constructor
      · rintro ⟨⟩
        exact ⟨rfl, rfl, hno⟩
      · rintro ⟨rfl, hparts, -⟩
        obtain ⟨rfl, hleaf⟩ := List.append_inj' hparts rfl
        cases hleaf
        rfl

theorem MadeOf.unique {parts' : List Text} (h : MadeOf name anchored parts)
    (h' : MadeOf name anchored' parts') : anchored = anchored' ∧ parts = parts' := by
  obtain ⟨rfl, rfl, -⟩ := madeOf_iff.mp h
  obtain ⟨rfl, rfl, -⟩ := madeOf_iff.mp h'
  exact ⟨rfl, rfl⟩

theorem exists_madeOf_iff :
    (∃ anchored parts, MadeOf name anchored parts) ↔ ∃ n, read? name = some n := by
  constructor
  · rintro ⟨anchored, parts, h⟩
    obtain rfl | ⟨outer, leaf, rfl⟩ := List.eq_nil_or_concat parts
    · exact absurd rfl h.separable.ne_nil
    · rw [List.concat_eq_append] at h
      exact ⟨⟨anchored, outer, leaf⟩, read?_eq_some_iff.mpr h⟩
  · rintro ⟨n, hn⟩
    exact ⟨_, _, read?_eq_some_iff.mp hn⟩

theorem render_of_read? (h : read? name = some n) : n.render = name :=
  (read?_eq_some_iff.mp h).joined.symm

/-! ## Names without a colon -/

theorem separable_of_not_mem (h : ∀ s ∈ ss, ':' ∉ s) (hne : ss ≠ []) : Separable ss where
  ne_nil := hne
  not_infix s hs hin := h s hs (hin.subset (by decide))
  getLast?_ne s hs hlast := h s ((List.dropLast_sublist ss).subset hs) (List.mem_of_getLast? hlast)

/-- A name that joins parts without a colon is read as these parts. -/
theorem read?_intercalate (h : ∀ s ∈ outer ++ [leaf], s ≠ [] ∧ ':' ∉ s) :
    read? (nameSeparator.intercalate (outer ++ [leaf])) = some ⟨false, outer, leaf⟩ := by
  have hsep : Separable (outer ++ [leaf]) := separable_of_not_mem (fun s hs => (h s hs).2) (by simp)
  have hne : ∀ s ∈ outer ++ [leaf], s ≠ [] := fun s hs => (h s hs).1
  exact read?_eq_some_iff.mpr ⟨by simpa using hsep.not_prefix hne, rfl, hsep, hne⟩

end CodeCatalog.DeclaredName

namespace CodeCatalog.RegistryM

open DeclaredName

theorem run_readName (name : Text) (r : Registry) :
    readName name r =
      match read? name with
      | some n => .ok n r
      | none => .error (.emptyName name) r := by
  unfold readName
  cases read? name <;> rfl

/-- Names are read by their grammar. One that has it is made of one list of parts only, and read as
these: the last is the leaf, and those before it lead there. Joining them gives the name back. Any
other name is refused and given as a whole. -/
theorem reads_by_grammar (name : Text) (r : Registry) :
    ((∃ n s, readName name r = .ok n s) ↔ ∃ anchored parts, MadeOf name anchored parts) ∧
    (∀ n s, readName name r = .ok n s ↔ s = r ∧ MadeOf name n.anchored (n.outer ++ [n.leaf])) ∧
    (∀ e s, readName name r = .error e s ↔
      s = r ∧ e = .emptyName name ∧ ¬ ∃ anchored parts, MadeOf name anchored parts) ∧
    (∀ anchored anchored' parts parts', MadeOf name anchored parts → MadeOf name anchored' parts' →
      anchored = anchored' ∧ parts = parts') ∧
    ∀ n s, readName name r = .ok n s → n.render = name := by
  have hok : ∀ n s, readName name r = .ok n s ↔ s = r ∧ read? name = some n := by
    intro n s
    rw [run_readName]
    cases read? name <;> simp [eq_comm, and_comm]
  refine ⟨?_, ?_, ?_, fun _ _ _ _ => MadeOf.unique, ?_⟩
  · simp only [hok, exists_madeOf_iff, exists_eq_left]
  · intro n s
    rw [hok, read?_eq_some_iff]
  · intro e s
    rw [run_readName, exists_madeOf_iff]
    cases read? name <;> simp [eq_comm, and_comm]
  · intro n s h
    exact render_of_read? ((hok n s).mp h).2

/-- Of three colons the first two are the separator. -/
example : read? [':', ':', 'A', ':', ':', ':', 'B'] = some ⟨true, [['A']], [':', 'B']⟩ := by decide

end CodeCatalog.RegistryM
