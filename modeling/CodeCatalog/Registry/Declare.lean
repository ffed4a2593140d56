import CodeCatalog.Registry.Intern

/-! Declarations, and how they are merged into the entity that they declare. -/
namespace CodeCatalog

/-- One declaration, as it was found in a file. -/
structure Declaration where
  scope : Scope
  /-- The declared name, which may go through namespaces. -/
  name : Text
  kind : EntityKind
  site : Location
  docstring : Option Text := none
  source : Option Text := none
  signature : Option Text := none
deriving DecidableEq

/-- Whether a declaration has documentation that is not blank. -/
def Declaration.isDocumented (d : Declaration) : Bool :=
  d.docstring.any (!Text.allBlank ·)

/-- Writes a declaration's documentation over the old one, if it has any. -/
def Entity.document (e : Entity) (d : Declaration) : Entity :=
  match d.docstring with
  | some raw =>
    if d.isDocumented then { e with attributes := e.attributes.setDocstring (.read raw) } else e
  | none => e

/-- Writes the source text and the signature that a declaration gives. -/
def AttributeTable.overwrite (t : AttributeTable) (d : Declaration) : AttributeTable :=
  let t := d.source.elim t t.setSource
  d.signature.elim t t.setSignature

/-- Merges a declaration into its entity. The site is added; the documentation counts if the site is
now the canonical one, or if there has been none; source text and signature always count. -/
def Entity.merge (e : Entity) (d : Declaration) : Entity :=
  let e := e.addSite d.site d.isDocumented
  let e := if e.ledger.lastIsCanonical || e.attributes.docstring.isEmpty then e.document d else e
  { e with attributes := e.attributes.overwrite d }

namespace RegistryM

/-- Interns what is declared, and merges the declaration into it. -/
def declare (d : Declaration) : RegistryM EntityId := do
  let id ← intern d.scope d.name d.kind
  modify (·.update id (·.merge d))
  return id

/-- Declares one after the other, up to the first that is refused. -/
def declareAll : List Declaration → RegistryM (List EntityId)
  | [] => return []
  | d :: ds => do
    let id ← declare d
    let ids ← declareAll ds
    return id :: ids

end RegistryM

end CodeCatalog
