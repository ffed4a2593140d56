import CodeCatalog.Entity.Kind

/-! Qualified paths. -/
namespace CodeCatalog.Path

/-- The path of a member. The root has the empty path, and no name separator stands after it; the
separator of a routine stands there all the same. -/
def member (ownerPath : Text) (kind : EntityKind) (leaf : Text) : Text :=
  if ownerPath = [] ∧ kind.separator = nameSeparator then leaf
  else ownerPath ++ kind.separator ++ leaf

end CodeCatalog.Path
