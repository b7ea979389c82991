import SchemaTree.Descriptor

/-!
# Properties

A `Property` is what is known about a field on its way into a schema, apart from
the schema of the type it refers to.  It starts with a name and, if the field is
declared, its descriptor; handlers fill in the rest.

* `Property.target?`: **the type whose schema governs the values of the field**, for
  a field that is not ignored and is an object or an array.
* `Property.overlay`: the members that a property writes over those of its kind.
-/

namespace SchemaTree

open Json

/-- What is known about a field apart from the schema inside it. -/
structure Property where
  name : String
  kind : Option Kind := none
  items : Option Kind := none
  object : Option TypeId := none
  ignored : Bool := false
  required : Bool := false
  title : Option String := none
  description : Option String := none
  format : Option String := none
  minimum : Option Double := none
  maximum : Option Double := none
  minLength : Option Nat := none
  maxLength : Option Nat := none
  pattern : Option String := none
  choices : List Value := []
  fallback : Option Value := none
  declared : Option Descriptor := none
  deriving Repr, Inhabited

namespace Property

/-- The type whose schema governs the values of the field. -/
def target? (p : Property) : Option TypeId :=
  if p.ignored then none
  else
    match p.kind with
    | some .object => p.object
    | some .array => p.object
    | _ => none

/-- Sets a key if there is a value for it. -/
def insertSome (key : String) (value : Option Value) (members : Members) : Members :=
  match value with
  | some v => Members.insert key v members
  | none => members

/-- Writes what the property says over members, in a fixed order. -/
def overlay (p : Property) (members : Members) : Members :=
  members
  |> insertSome "title" (p.title.map .string)
  |> insertSome "description" (p.description.map .string)
  |> insertSome "format" (p.format.map .string)
  |> insertSome "minimum" (p.minimum.map .ofBound)
  |> insertSome "maximum" (p.maximum.map .ofBound)
  |> insertSome "minLength" (p.minLength.map .ofNat)
  |> insertSome "maxLength" (p.maxLength.map .ofNat)
  |> insertSome "pattern" (p.pattern.map .string)
  |> insertSome "enum" (if p.choices.isEmpty then none else some (.array p.choices))
  |> insertSome "default" p.fallback
  |> insertSome "required" (if p.required then some (.bool true) else none)

end Property

/-! ## Equality of contents -/

/-- Equality of optional parts. -/
def sameOption {α : Type} (same : α → α → Bool) : Option α → Option α → Bool
  | some a, some b => same a b
  | none, none => true
  | _, _ => false

/-- Equality of annotations; numbers are compared as numbers. -/
def Annotations.same (a b : Annotations) : Bool :=
  a.ignore == b.ignore && a.kind == b.kind && a.title == b.title &&
    a.description == b.description && a.format == b.format &&
    sameOption Double.same a.minimum b.minimum && sameOption Double.same a.maximum b.maximum &&
    a.minLength == b.minLength && a.maxLength == b.maxLength && a.pattern == b.pattern &&
    sameOption Value.sameItems a.choices b.choices && a.required == b.required &&
    sameOption Value.same a.fallback b.fallback

/-- Equality of descriptors. -/
def Descriptor.same (a b : Descriptor) : Bool :=
  a.name == b.name && a.shape == b.shape && a.annotations.same b.annotations

/-- Equality of properties; numbers are compared as numbers. -/
def Property.same (a b : Property) : Bool :=
  a.name == b.name && a.kind == b.kind && a.items == b.items && a.object == b.object &&
    a.ignored == b.ignored && a.required == b.required && a.title == b.title &&
    a.description == b.description && a.format == b.format &&
    sameOption Double.same a.minimum b.minimum && sameOption Double.same a.maximum b.maximum &&
    a.minLength == b.minLength && a.maxLength == b.maxLength && a.pattern == b.pattern &&
    Value.sameItems a.choices b.choices && sameOption Value.same a.fallback b.fallback &&
    sameOption Descriptor.same a.declared b.declared

end SchemaTree
