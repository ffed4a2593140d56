import CodeCatalog.Text.Blank

/-! Lists of types in brackets, such as `[String, Hash{Symbol => Array<String>}]`. -/
namespace CodeCatalog.TypeList

/-! ## Nesting -/

/-- What a character does to the nesting of brackets. -/
inductive Role where
  | opening
  | closing
  | plain
deriving DecidableEq

/-- Brackets of all kinds nest in one another and close one another. The second half of an arrow
`=>` is no bracket. -/
def role (last c : Char) : Role :=
  if c = '>' ∧ last = '=' then .plain
  else if c ∈ ['[', '<', '{', '('] then .opening
  else if c ∈ [']', '>', '}', ')'] then .closing
  else .plain

/-- How far a scan has come: how many brackets are open, and the character just passed. -/
structure Nesting where
  depth : Nat
  last : Char
deriving DecidableEq

/-- A scan that has passed nothing yet, inside `depth` brackets. -/
def Nesting.start (depth : Nat) : Nesting :=
  ⟨depth, ' '⟩

def Nesting.push (n : Nesting) (c : Char) : Nesting :=
  match role n.last c with
  | .opening => ⟨n.depth + 1, c⟩
  | .closing => ⟨n.depth - 1, c⟩
  | .plain => ⟨n.depth, c⟩

@[simp] theorem Nesting.last_push (n : Nesting) (c : Char) : (n.push c).last = c := by
  unfold push; split <;> rfl

/-! ## Reading a list -/

/-- Splits before and after the first character that leaves no bracket open. -/
def upToClose : Nesting → Text → Option (Text × Text)
  | _, [] => none
  | n, c :: t =>
    if (n.push c).depth = 0 then some ([], t)
    else (upToClose (n.push c) t).map fun (inside, rest) => (c :: inside, rest)

/-- Splits at the commas that stand outside all brackets. -/
def pieces : Nesting → Text → List Text
  | _, [] => [[]]
  | n, c :: t =>
    if c = ',' ∧ n.depth = 0 then [] :: pieces (n.push c) t
    else (pieces (n.push c) t).modifyHead (c :: ·)

/-- The entries of a list, trimmed; an entry with nothing in it does not count. -/
def entries (t : Text) : List Text :=
  ((pieces (.start 0) t).map Text.trim).filter (· ≠ [])

/-- Reads the list that a text starts with. The second part is the text after the list. -/
def read? : Text → Option (List Text × Text)
  | '[' :: t =>
    (upToClose (.start 1) t).map fun (inside, rest) => (entries inside, Text.trimStart rest)
  | _ => none

theorem pieces_ne_nil (n : Nesting) (t : Text) : pieces n t ≠ [] := by
  induction t generalizing n with
  | nil => simp [pieces]
  | cons c t ih =>
    unfold pieces
    split
    · simp
    · cases h : pieces (n.push c) t with
      | nil => exact absurd h (ih _)
      | cons l ls => simp

/-- Nothing is lost between the brackets: the closing character alone is dropped. -/
theorem append_of_upToClose {n : Nesting} {t inside rest : Text}
    (h : upToClose n t = some (inside, rest)) : ∃ c, t = inside ++ c :: rest := by
  induction t generalizing n inside with
  | nil => simp [upToClose] at h
  | cons c t ih =>
    unfold upToClose at h
    split at h
    · obtain ⟨rfl, rfl⟩ := by simpa using h
      exact ⟨c, rfl⟩
    · obtain ⟨⟨i, r⟩, hi, he⟩ := Option.map_eq_some_iff.mp h
      simp only [Prod.mk.injEq] at he
      obtain ⟨rfl, rfl⟩ := he
      obtain ⟨d, rfl⟩ := ih hi
      exact ⟨d, rfl⟩

end CodeCatalog.TypeList
