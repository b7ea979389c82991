/-!
# Identifiers of schemas

A schema is identified by the address `base/alias.json#`, whatever slashes its
base ends in.
-/

namespace SchemaTree

/-- The base of identifiers if none is given. -/
def defaultBase : String := "http://localhost/schemas"

/-- A base without the slashes at its end. -/
def trimSlashes (base : String) : String :=
  String.ofList (base.toList.reverse.dropWhile (· = '/')).reverse

/-- The identifier of the schema of an alias. -/
def urlFor (base aliasName : String) : String := trimSlashes base ++ "/" ++ aliasName ++ ".json#"

end SchemaTree
