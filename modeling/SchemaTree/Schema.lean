import SchemaTree.Property

/-!
# Schemas

A `Schema` has a heading and a list of fields; a field is a property with a
`Link` to the type it refers to.  **A link is exactly one of three things**: nothing,
the schema of the type, or a deferred reference to it by identifier.

* `Schema.render`: the JSON document of a schema.  A nested schema is written out
  where it stands, a deferred link as a `$ref`; what the property says is written
  over it.
* `Schema.hasDeferred`: whether any link of the tree is deferred.
-/

namespace SchemaTree

open Json

/-- The heading of a schema. -/
structure Heading where
  title : String
  id : Option String := none
  metaSchema : Option String := none
  kind : Kind := .object
  description : Option String := none
  deriving DecidableEq, Repr, Inhabited

mutual

/-- A schema: a heading and fields. -/
inductive Schema where
  | mk (heading : Heading) (fields : List Field)

/-- A field of a schema: a property and its link. -/
inductive Field where
  | mk (property : Property) (link : Link)

/-- How a field is linked to the type it refers to. -/
inductive Link where
  | none
  | nested (schema : Schema)
  | deferred (reference : String)

end

instance : Inhabited Schema := ⟨.mk default []⟩
instance : Inhabited Link := ⟨.none⟩
instance : Inhabited Field := ⟨.mk default .none⟩

namespace Field

def property : Field → Property
  | mk p _ => p

def link : Field → Link
  | mk _ l => l

/-- A field without a link. -/
def ofProperty (p : Property) : Field := mk p .none

/-- The same field with another link. -/
def withLink (f : Field) (l : Link) : Field := mk f.property l

/-- Whether the link is deferred. -/
def isDeferred (f : Field) : Bool :=
  match f.link with
  | .deferred _ => true
  | _ => false

/-- The identifier of a deferred target. -/
def reference? (f : Field) : Option String :=
  match f.link with
  | .deferred r => some r
  | _ => none

/-- The schema inside. -/
def schema? (f : Field) : Option Schema :=
  match f.link with
  | .nested s => some s
  | _ => none

end Field

namespace Schema

def heading : Schema → Heading
  | mk h _ => h

def fields : Schema → List Field
  | mk _ fs => fs

/-- A schema without fields. -/
def ofTitle (title : String) : Schema := mk { title } []

/-- Appends a field, unless it is ignored. -/
def add (s : Schema) (f : Field) : Schema :=
  if f.property.ignored then s else mk s.heading (s.fields ++ [f])

/-- The first field with a name. -/
def field? (s : Schema) (name : String) : Option Field :=
  s.fields.find? (·.property.name = name)

end Schema

/-! ## Deferred links -/

mutual

/-- Whether any link of the tree is deferred. -/
def Schema.hasDeferred : Schema → Bool
  | .mk _ fields => Field.anyDeferred fields

def Field.anyDeferred : List Field → Bool
  | [] => false
  | f :: fs => f.hasDeferred || Field.anyDeferred fs

def Field.hasDeferred : Field → Bool
  | .mk _ link => link.hasDeferred

def Link.hasDeferred : Link → Bool
  | .none => false
  | .nested s => s.hasDeferred
  | .deferred _ => true

end

/-! ## Documents -/

/-- The members of a heading that come before the properties; a document has its meta-schema at
the root only. -/
def Heading.render (root : Bool) (h : Heading) : Members :=
  [("title", .string h.title)]
  |> Property.insertSome "id" (h.id.map .string)
  |> Property.insertSome "$schema" (if root then h.metaSchema.map .string else none)
  |> Members.insert "type" (.string h.kind.name)
  |> Property.insertSome "description" (h.description.map .string)

/-- The members of a field without a link. -/
def Property.plain (p : Property) : Members :=
  match p.kind with
  | none => []
  | some .array =>
    ("type", .string "array") ::
      (match p.items with
        | some k => [("items", .object [("type", .string k.name)])]
        | none => [])
  | some k => [("type", .string k.name)]

mutual

/-- The members of a schema; `root` tells whether it is a document of its own. -/
def Schema.render (root : Bool) : Schema → Members
  | .mk h fields =>
    Members.insert "properties" (.object (Members.ofList (Field.renderAll fields))) (h.render root)

/-- The properties of fields that are not ignored, by name. -/
def Field.renderAll : List Field → Members
  | [] => []
  | f :: fs =>
    if f.property.ignored then Field.renderAll fs
    else (f.property.name, .object f.render) :: Field.renderAll fs

/-- The members of a field. -/
def Field.render : Field → Members
  | .mk p link => p.overlay (link.render p)

/-- The members of a field that come from its kind and its link. -/
def Link.render (p : Property) : Link → Members
  | .none => p.plain
  | .nested s =>
    match p.kind with
    | some .object => s.render false
    | some .array => [("type", .string "array"), ("items", .object (s.render false))]
    | _ => p.plain
  | .deferred reference =>
    match p.kind with
    | some .object => [("$ref", .string reference)]
    | some .array =>
      [("type", .string "array"), ("items", .object [("$ref", .string reference)])]
    | _ => p.plain

end

/-- The document of a schema. -/
def Schema.toValue (s : Schema) : Value := .object (s.render true)

/-- A field as a value. -/
def Field.toValue (f : Field) : Value := .object f.render

/-! ## Equality of contents -/

mutual

/-- Equality of schemas; numbers are compared as numbers. -/
def Schema.same : Schema → Schema → Bool
  | .mk h fs, .mk h' fs' => h == h' && Field.sameAll fs fs'

def Field.sameAll : List Field → List Field → Bool
  | [], [] => true
  | f :: fs, f' :: fs' => f.same f' && Field.sameAll fs fs'
  | _, _ => false

def Field.same : Field → Field → Bool
  | .mk p link, .mk p' link' => p.same p' && link.same link'

def Link.same : Link → Link → Bool
  | .none, .none => true
  | .nested s, .nested s' => s.same s'
  | .deferred r, .deferred r' => r == r'
  | _, _ => false

end

end SchemaTree
