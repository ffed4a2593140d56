import CodeCatalog.Entity.Id
import CodeCatalog.Text.Quoted

/-! Why a declaration is refused. -/
namespace CodeCatalog

/-- What was found where a namespace was asked for. -/
inductive NamespaceFault where
  /-- A handle that another registry issued, or this one before it was reset. -/
  | deadHandle (id : EntityId)
  | described (what : Text)
deriving DecidableEq

def NamespaceFault.message : NamespaceFault → String
  | deadHandle id => "stale or foreign entity handle " ++ id.render
  | described what => String.ofList what

inductive RegistryError where
  | invalidNamespace (found : NamespaceFault)
  /-- A part of a declared name is empty. -/
  | emptyName (name : Text)
  /-- No handle is left for another entity, which would stand at this position. -/
  | capacityExceeded (index : Nat)
deriving DecidableEq

def RegistryError.message : RegistryError → String
  | invalidNamespace found => "Invalid namespace kind: " ++ found.message
  | emptyName name => "Empty name in declaration: " ++ String.ofList (Text.quoted name)
  | capacityExceeded index =>
    "Registry capacity exceeded: cannot allocate entity #" ++ toString index

end CodeCatalog
