/-! Handles of entities. -/
namespace CodeCatalog

/-- A handle: the generation of the registry that issued it, and a position in its arena. No two
registries share a generation, and a registry takes a new one when it is reset. -/
structure EntityId where
  generation : Nat
  index : Nat
deriving DecidableEq

namespace EntityId

/-- A handle as text, `entity_index@generation`. -/
def render (id : EntityId) : String :=
  "entity_" ++ toString id.index ++ "@" ++ toString id.generation

/-- Handles go by generation, those of one generation by position. -/
def lt (a b : EntityId) : Prop :=
  a.generation < b.generation ∨ a.generation = b.generation ∧ a.index < b.index

instance : LT EntityId := ⟨lt⟩

instance (a b : EntityId) : Decidable (a < b) :=
  inferInstanceAs (Decidable (_ ∨ _))

end EntityId

end CodeCatalog
