import SchemaTree.Annotations

/-!
# Declared fields

A type is known by its `TypeId`.  A field is declared with a name, a `Shape` and
annotations.  A shape is a kind, a reference to a type, or a collection of
shapes; `Shape.target?` finds the type a shape refers to through any number of
collections.
-/

namespace SchemaTree

/-- The identity of a type. -/
structure TypeId where
  name : String
  deriving DecidableEq, Repr, Inhabited, Hashable

/-- The identity as log records write it. -/
def TypeId.label (t : TypeId) : String := "TypeIdentity(" ++ Text.quoted t.name ++ ")"

/-- Puts an identity into a list in rising order of names, unless it is there. -/
def TypeId.insertSorted (t : TypeId) : List TypeId → List TypeId
  | [] => [t]
  | u :: us =>
    if t = u then u :: us
    else if t.name < u.name then t :: u :: us
    else u :: insertSorted t us

/-- Identities in rising order of names, each once. -/
def TypeId.sorted (ts : List TypeId) : List TypeId := ts.foldr TypeId.insertSorted []

/-- How a field is declared. -/
inductive Shape where
  | kind (k : Kind)
  | entity (target : TypeId)
  | collection (of : Shape)
  deriving DecidableEq, Repr, Inhabited

/-- The type a shape refers to. -/
def Shape.target? : Shape → Option TypeId
  | kind _ => none
  | entity target => some target
  | collection inner => inner.target?

/-- The shape in words for people who debug. -/
def Shape.label : Shape → String
  | kind k => "Primitive(" ++ k.label ++ ")"
  | entity target => "Object(" ++ target.label ++ ")"
  | collection inner => "Collection(" ++ inner.label ++ ")"

/-- A declared field. -/
structure Descriptor where
  name : String
  shape : Shape
  annotations : Annotations := {}
  deriving Repr, Inhabited

end SchemaTree
