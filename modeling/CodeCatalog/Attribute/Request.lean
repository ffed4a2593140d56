import CodeCatalog.Attribute.Table

/-! Requests to a table of attributes, and the answers to them. -/
namespace CodeCatalog

/-- What can be asked of a table of attributes. -/
inductive AttributeRequest where
  | get (key : String)
  | set (key : String) (value : AttributeValue)
  | remove (key : String)
  | contains (key : String)
  | setSource (raw : Text)
  | setSignature (signature : Text)
  | setDocstring (d : Docstring)
  | setDynamic (flag : Bool)
deriving DecidableEq

/-- The answer to a request. -/
inductive Answer where
  | flag (b : Bool)
  | value (v : Option AttributeValue)
  | text (t : Option Text)
  | docstring (d : Docstring)
deriving DecidableEq

/-- Carries out a request. A write through a field answers with what the field then holds. -/
def AttributeTable.perform (t : AttributeTable) : AttributeRequest → Answer × AttributeTable
  | .get key => (.value (t.get key), t)
  | .set key value =>
    match t.set? key value with
    | some t' => (.flag true, t')
    | none => (.flag false, t)
  | .remove key => let (v, t') := t.remove key; (.value v, t')
  | .contains key => (.flag (t.contains key), t)
  | .setSource raw => let t' := t.setSource raw; (.text t'.source, t')
  | .setSignature signature => let t' := t.setSignature signature; (.text t'.signature, t')
  | .setDocstring d => let t' := t.setDocstring d; (.docstring t'.docstring, t')
  | .setDynamic flag => let t' := t.setDynamic flag; (.flag t'.dynamic, t')

end CodeCatalog
