import CodeCatalog.Entity.Kind

/-! Declared names such as `A::B::c`: where a declaration says that it belongs, and its own name. -/
namespace CodeCatalog

/-- A name as it stands in a declaration. -/
structure DeclaredName where
  /-- Whether the name starts at the root. -/
  anchored : Bool
  /-- The namespaces before the last part. -/
  outer : List Text
  /-- The last part. -/
  leaf : Text
deriving DecidableEq

namespace DeclaredName

/-- The parts of a text between separators. Of the separators that overlap the first one counts. -/
def segments : Text → List Text
  | [] => [[]]
  | ':' :: ':' :: t => [] :: segments t
  | c :: t => (segments t).modifyHead (c :: ·)

/-- A separator at the start anchors a name, and is taken off. -/
def takeAnchor : Text → Bool × Text
  | ':' :: ':' :: t => (true, t)
  | t => (false, t)

/-- Reads a name. No part of it may be empty. -/
def read? (name : Text) : Option DeclaredName :=
  let (anchored, rest) := takeAnchor name
  if [] ∈ segments rest then none
  else some { anchored, outer := (segments rest).dropLast, leaf := (segments rest).getLastD [] }

/-- Writes a name out again. -/
def render (n : DeclaredName) : Text :=
  (if n.anchored then nameSeparator else []) ++ nameSeparator.intercalate (n.outer ++ [n.leaf])

theorem segments_ne_nil (t : Text) : segments t ≠ [] := by
  fun_induction segments t with
  | case1 => simp
  | case2 => simp
  | case3 c t _ ih =>
    cases h : segments t with
    | nil => exact absurd h ih
    | cons s ss => simp

/-- Joining the parts gives the text back. -/
theorem intercalate_segments (t : Text) : nameSeparator.intercalate (segments t) = t := by
  fun_induction segments t with
  | case1 => rfl
  | case2 t ih =>
    cases h : segments t with
    | nil => exact absurd h (segments_ne_nil t)
    | cons s ss => rw [List.intercalate_cons_cons, ← h, ih]; rfl
  | case3 c t _ ih =>
    cases h : segments t with
    | nil => exact absurd h (segments_ne_nil t)
    | cons s ss =>
      rw [h] at ih
      cases ss with
      | nil => simpa using ih
      | cons s' ss => simpa [List.intercalate_cons_cons] using ih

end DeclaredName

end CodeCatalog
