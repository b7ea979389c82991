import SchemaTree.Descriptor
import SchemaTree.Files

/-!
# Why a catalog is refused

The causes for which loading or building a catalog fails, and their wording.
-/

namespace SchemaTree

/-- Why a catalog is refused. -/
inductive CatalogError where
  | unreadable (path : String) (cause : FileError)
  | malformed (refusal : Json.Refusal)
  | invalidAlias (aliasName : String)
  | duplicateAlias (name : String)
  | duplicateField (owner field : String)
  | danglingReference (owner field target : String)
  | unusableType (owner field reason : String)
  deriving Repr

namespace CatalogError

/-- The wording of a refused catalog. -/
def message : CatalogError → String
  | unreadable path cause => "failed to read catalog " ++ path ++ ": " ++ cause.message
  | malformed r =>
    "invalid catalog at JSON path " ++ Json.Step.pathText r.path ++ ": " ++ r.message
  | invalidAlias aliasName => "alias `" ++ aliasName ++ "` is not a valid identifier"
  | duplicateAlias name => "alias `" ++ name ++ "` is defined more than once"
  | duplicateField owner field =>
    "field `" ++ owner ++ "." ++ field ++ "` is declared more than once"
  | danglingReference owner field target =>
    "field `" ++ owner ++ "." ++ field ++ "` references unknown alias `" ++ target ++ "`"
  | unusableType owner field reason =>
    "field `" ++ owner ++ "." ++ field ++ "` has unusable type: " ++ reason

end CatalogError

end SchemaTree
