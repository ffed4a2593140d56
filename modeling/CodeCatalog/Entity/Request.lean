import CodeCatalog.Attribute.Request
import CodeCatalog.Entity.Basic

/-! Requests to an entity. They change its attributes and its sites, never its identity. -/
namespace CodeCatalog

/-- What can be asked of an entity. -/
inductive EntityRequest where
  | get (key : String)
  | set (key : String) (value : AttributeValue)
  | addSite (site : Location) (documented : Bool)
  /-- A request that goes past the derived keys, to the attributes themselves. -/
  | attribute (request : AttributeRequest)
deriving DecidableEq

namespace Entity

/-- Carries out a request. A new site answers whether it is the canonical one. -/
def perform (e : Entity) : EntityRequest → Answer × Entity
  | .get key => (.value (e.get key), e)
  | .set key value =>
    match e.set? key value with
    | some e' => (.flag true, e')
    | none => (.flag false, e)
  | .addSite site documented =>
    let e' := e.addSite site documented
    (.flag e'.ledger.lastIsCanonical, e')
  | .attribute request =>
    let (answer, attributes) := e.attributes.perform request
    (answer, { e with attributes })

/-- Carries out requests one after the other. -/
def performAll (e : Entity) : List EntityRequest → List Answer × Entity
  | [] => ([], e)
  | request :: requests =>
    let (answer, e') := e.perform request
    let (answers, e'') := e'.performAll requests
    (answer :: answers, e'')

end Entity

end CodeCatalog
