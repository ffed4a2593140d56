import CodeCatalog.Proofs.Attribute.Writes
import CodeCatalog.Proofs.Snippet.Terminators

/-!
# Writing back

What becomes of a table when a value that was read from it is written to it again. Nothing changes, except
that a source is cut once more. The one that is stored has been cut before, so that all it can lose is the
terminator at its end.
-/
namespace CodeCatalog.AttributeTable

open AttributeRequest

variable {t : AttributeTable} {rs : List AttributeRequest} {key : String} {value : AttributeValue}
variable {a : Accessor} {s : Text}

/-! ## All but the source -/

theorem set?_field (hfield : t.field a = some value) (ha : a ≠ .source) :
    t.set? a.key value = some t := by
  cases a with
  | source => exact absurd rfl ha
  | signature =>
      obtain ⟨signature, hstored, rfl⟩ := Option.map_eq_some_iff.mp hfield
      change some (t.setSignature signature) = some t
      rw [setSignature, ← hstored]
  | docstring =>
      cases hfield
      rfl
  | dynamic =>
      cases hfield
      rfl

theorem set?_get (hslots : t.slots.keys.Nodup) (hkey : key ≠ Accessor.source.key)
    (hget : t.get key = some value) : t.set? key value = some t := by
  cases ha : Accessor.ofKey? key with
  | some a =>
      obtain rfl := Accessor.ofKey?_eq_some_iff.mp ha
      rw [get_key] at hget
      exact set?_field hget fun heq => hkey (congrArg Accessor.key heq)
  | none =>
      rw [get_of_slot ha] at hget
      rw [set?_of_slot ha, OrderedMap.insert_of_find? hslots hget]

/-! ## The source -/

theorem exists_dedent_of_effect? {r : AttributeRequest}
    (h : r.effect? Accessor.source.key = some (some value)) :
    ∃ raw, value = .text (Snippet.dedent raw) := by
  unfold effect? at h
  split at h
  · next written _ =>
      split at h
      · next hwritten =>
          have htakes := hwritten.2
          rw [takes_key] at htakes
          cases h
          cases written with
          | text raw => exact ⟨raw, rfl⟩
          | _ => cases htakes
      · cases h
  · split at h <;> cases h

/-- A source that is stored has been cut. -/
theorem Holds.exists_source (h : Holds rs t) (hs : t.source = some s) :
    ∃ raw, s = Snippet.dedent raw := by
  have hget := h.get_eq Accessor.source.key
  rw [get_key, field, hs, Option.map_some, valueAfter] at hget
  cases hlast : (rs.filterMap (·.effect? Accessor.source.key)).getLast? with
  | none =>
      rw [hlast] at hget
      cases hget
  | some left =>
      rw [hlast, Option.getD_some] at hget
      obtain ⟨r, -, hr⟩ := List.mem_filterMap.mp (List.mem_of_getLast? hlast)
      rw [← hget] at hr
      obtain ⟨raw, hraw⟩ := exists_dedent_of_effect? hr
      exact ⟨raw, AttributeValue.text.inj hraw⟩

theorem Holds.perform_set_source (h : Holds rs t) (hs : t.source = some s) :
    t.perform (.set Accessor.source.key (.text s)) =
      (.flag true, { t with source := some (Snippet.dropTerminator s) }) := by
  obtain ⟨raw, rfl⟩ := h.exists_source hs
  rw [← Snippet.dedent_dedent_eq]
  rfl

/-- A value that is read from a table and written back is taken. The table stays as it is, but for one
terminator at the end of the source. -/
theorem writes_back (rs : List AttributeRequest) (key : String) (value : AttributeValue)
    (hget : (ofRequests rs).get key = some value) :
    (key ≠ "source" → (ofRequests rs).perform (.set key value) = (.flag true, ofRequests rs)) ∧
    (key = "source" → ∃ s, (ofRequests rs).source = some s ∧ value = .text s ∧
      (ofRequests rs).perform (.set key value) =
        (.flag true, { ofRequests rs with source := some (Snippet.dropTerminator s) }) ∧
      ((ofRequests rs).perform (.set key value) = (.flag true, ofRequests rs) ↔
        s.getLast? ≠ some '\n')) := by
  have h := holds_ofRequests rs
  constructor
  · intro hkey
    rw [perform, set?_get h.arranged.nodup hkey hget]
  · rintro rfl
    obtain ⟨s, hs, rfl⟩ := Option.map_eq_some_iff.mp ((get_key _ .source).symm.trans hget)
    have hwritten := h.perform_set_source hs
    refine ⟨s, hs, rfl, hwritten, ?_⟩
    rw [← Snippet.dropTerminator_eq_self_iff]
    constructor
    · intro hsame
      have hsource := congrArg (·.2.source) (hwritten.symm.trans hsame)
      exact Option.some.inj (hsource.trans hs)
    · intro hkept
      rw [hkept, ← hs] at hwritten
      exact hwritten

/-- A slot stays as it is, and a source that ends in a blank line loses it. -/
theorem writes_back_of_blank_line_at_end :
    (ofRequests [.set "note" (.int 1), .setSource "  a\n\n".toList]).perform (.set "note" (.int 1)) =
        (.flag true, ofRequests [.set "note" (.int 1), .setSource "  a\n\n".toList]) ∧
      (ofRequests [.set "note" (.int 1), .setSource "  a\n\n".toList]).perform
          (.set "source" (.text "a\n".toList)) =
        (.flag true, ofRequests [.set "note" (.int 1), .setSource "a".toList]) := by
  refine ⟨(writes_back _ "note" _ (by decide)).1 (by decide), ?_⟩
  obtain ⟨s, -, hs, hwritten, -⟩ := (writes_back
    [.set "note" (.int 1), .setSource "  a\n\n".toList] "source" (.text "a\n".toList) (by decide)).2 rfl
  rw [hwritten, ← AttributeValue.text.inj hs]
  decide

end CodeCatalog.AttributeTable
