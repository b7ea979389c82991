import SchemaTree.Catalog.Build

/-!
# Sources of types

A `TypeSource` answers the four questions that a compiler asks about types: which
type an alias names, which alias a type has, which fields it declares and how it
is described.  A catalog is such a source; so is any graph of types, which may
even be infinite.
-/

namespace SchemaTree

/-- Why a schema cannot be compiled. -/
inductive CompileError where
  | unknownAlias (aliasName : String)
  | introspection (identity : TypeId) (reason : String)
  | depthExceeded (aliasName : String) (depth maxDepth : Nat)
  deriving DecidableEq, Repr

/-- The wording of a failed compilation. -/
def CompileError.message : CompileError → String
  | unknownAlias aliasName => "unknown alias `" ++ aliasName ++ "`"
  | introspection t reason => "cannot introspect type `" ++ t.name ++ "`: " ++ reason
  | depthExceeded aliasName depth maxDepth =>
    "nesting depth " ++ toString depth ++ " exceeds the limit of " ++ toString maxDepth ++
      " while compiling `" ++ aliasName ++ "`"

/-- What a compiler has to know about types. -/
structure TypeSource where
  /-- The type that an alias names. -/
  resolve : String → Option TypeId
  /-- The alias of a type. -/
  aliasOf : TypeId → Option String
  /-- The declared fields of a type, or the reason why they are not known. -/
  fields : TypeId → Except String (List Descriptor)
  /-- The description of a type. -/
  description : TypeId → Option String := fun _ => none

namespace TypeSource

/-- The alias of a type, or its name if it has none. -/
def aliasFor (s : TypeSource) (t : TypeId) : String := (s.aliasOf t).getD t.name

end TypeSource

/-- A catalog as a source of types. -/
def Catalog.source (c : Catalog) : TypeSource where
  resolve := fun aliasName => (c.byAlias? aliasName).map (·.identity)
  aliasOf := fun t => (c.byIdentity? t).map (·.aliasName)
  fields := fun t =>
    match c.byIdentity? t with
    | some entry => .ok entry.fields
    | none => .error "no definition in catalog"
  description := fun t => (c.byIdentity? t).bind (·.description)

end SchemaTree
