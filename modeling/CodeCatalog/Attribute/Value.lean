import CodeCatalog.Docstring.Basic
import CodeCatalog.Location.Basic

/-! The values that attributes take. -/
namespace CodeCatalog

inductive AttributeValue where
  | bool (b : Bool)
  | int (n : Int64)
  | text (t : Text)
  | list (vs : List AttributeValue)
  | docstring (d : Docstring)
  | locations (ls : List Location)

namespace AttributeValue

/-! ## Kinds -/

/-- The name of a value's kind. -/
def kind : AttributeValue → String
  | bool _ => "bool"
  | int _ => "int"
  | text _ => "text"
  | list _ => "list"
  | docstring _ => "docstring"
  | locations _ => "locations"

def bool? : AttributeValue → Option Bool
  | bool b => some b
  | _ => none

def int? : AttributeValue → Option Int64
  | int n => some n
  | _ => none

def text? : AttributeValue → Option Text
  | text t => some t
  | _ => none

def docstring? : AttributeValue → Option Docstring
  | docstring d => some d
  | _ => none

def locations? : AttributeValue → Option (List Location)
  | locations ls => some ls
  | _ => none

/-! ## Equality -/

mutual
/-- Whether two values are the same. -/
def same : AttributeValue → AttributeValue → Bool
  | bool a, bool b => a = b
  | int a, int b => a = b
  | text a, text b => a = b
  | list as, list bs => sameList as bs
  | docstring a, docstring b => a = b
  | locations a, locations b => a = b
  | _, _ => false

def sameList : List AttributeValue → List AttributeValue → Bool
  | [], [] => true
  | a :: as, b :: bs => same a b && sameList as bs
  | _, _ => false
end

mutual
theorem same_iff : (a b : AttributeValue) → (same a b = true ↔ a = b)
  | bool _, b | int _, b | text _, b | docstring _, b | locations _, b => by
    cases b <;> simp [same]
  | list as, b => by
    cases b <;> simp [same, sameList_iff]

theorem sameList_iff : (as bs : List AttributeValue) → (sameList as bs = true ↔ as = bs)
  | [], bs => by cases bs <;> simp [sameList]
  | a :: as, [] => by simp [sameList]
  | a :: as, b :: bs => by simp [sameList, same_iff a b, sameList_iff as bs]
end

instance : DecidableEq AttributeValue := fun a b => decidable_of_iff _ (same_iff a b)

end AttributeValue

end CodeCatalog
