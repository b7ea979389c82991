import SchemaTree.Json.Decoder
import SchemaTree.Json.Printer
import SchemaTree.Kind

/-!
# Annotations of a field

What a declaration can say about a field besides its shape: whether to leave it
out, a kind that overrides the declared one, texts, and constraints on values.
Each of them may be absent; `null` is read as absence.

* `Annotations.form`: how annotations are decoded, member by member.
* `Annotations.toValue`: all members, absent ones as `null`.
-/

namespace SchemaTree

open Json

/-- What a declaration says about a field besides its shape. -/
structure Annotations where
  ignore : Bool := false
  kind : Option Kind := none
  title : Option String := none
  description : Option String := none
  format : Option String := none
  minimum : Option Double := none
  maximum : Option Double := none
  minLength : Option Nat := none
  maxLength : Option Nat := none
  pattern : Option String := none
  choices : Option (List Value) := none
  required : Bool := false
  fallback : Option Value := none
  deriving DecidableEq, Repr, Inhabited

namespace Annotations

/-- The names of the members, in order. -/
def names : List String :=
  ["ignore", "schema_type", "title", "description", "format", "minimum", "maximum", "min_length",
    "max_length", "pattern", "enum", "required", "default"]

/-- Decodes the name of a kind. -/
def decodeKind (r : Reading) : Decoded Kind :=
  r.asChoice (Kind.all.map Kind.name) Kind.ofName?

/-- Decodes the name of a kind that was set aside. -/
def decodeKindAside (r : Reading) : Decoded Kind :=
  r.asStoredChoice Reading.asNothingAside (Kind.all.map Kind.name) Kind.ofName?

/-- Sets the member with a name; other names change nothing. -/
def set (decodeKind : Reading → Decoded Kind) (a : Annotations) (name : String) (r : Reading) :
    Decoded Annotations :=
  match name with
  | "ignore" => r.asBool.map fun b => { a with ignore := b }
  | "schema_type" => (r.asOption decodeKind).map fun k => { a with kind := k }
  | "title" => (r.asOption Reading.asString).map fun s => { a with title := s }
  | "description" => (r.asOption Reading.asString).map fun s => { a with description := s }
  | "format" => (r.asOption Reading.asString).map fun s => { a with format := s }
  | "minimum" => (r.asOption Reading.asDouble).map fun d => { a with minimum := d }
  | "maximum" => (r.asOption Reading.asDouble).map fun d => { a with maximum := d }
  | "min_length" => (r.asOption Reading.asNatural).map fun n => { a with minLength := n }
  | "max_length" => (r.asOption Reading.asNatural).map fun n => { a with maxLength := n }
  | "pattern" => (r.asOption Reading.asString).map fun s => { a with pattern := s }
  | "enum" => (r.asOption (Reading.asList Reading.asValue)).map fun vs => { a with choices := vs }
  | "required" => r.asBool.map fun b => { a with required := b }
  | "default" => (r.asOption Reading.asValue).map fun v => { a with fallback := v }
  | _ => .ok a

/-- Annotations as a record with optional members and room for unknown keys. -/
def form (decodeKind : Reading → Decoded Kind) : RecordForm Annotations where
  expected := "struct FieldAnnotations"
  names := names
  closed := false
  set := set decodeKind

/-- Decodes annotations that stand for themselves. -/
def decode (r : Reading) : Decoded Annotations :=
  (r.record (form decodeKind) {}).map (·.value)

/-- Decodes annotations from a text. -/
def ofText (text : String) : Decoded Annotations :=
  decodeWhole decode (Reader.run (fun key => !names.contains key) nestingLimit text)

/-- An optional member as a value. -/
def orNull {α : Type} (f : α → Value) : Option α → Value
  | some a => f a
  | none => .null

/-- All members as an object. -/
def toValue (a : Annotations) : Value :=
  .object [
    ("ignore", .bool a.ignore),
    ("schema_type", orNull (fun k => .string k.name) a.kind),
    ("title", orNull .string a.title),
    ("description", orNull .string a.description),
    ("format", orNull .string a.format),
    ("minimum", orNull .ofDouble a.minimum),
    ("maximum", orNull .ofDouble a.maximum),
    ("min_length", orNull .ofNat a.minLength),
    ("max_length", orNull .ofNat a.maxLength),
    ("pattern", orNull .string a.pattern),
    ("enum", orNull .array a.choices),
    ("required", .bool a.required),
    ("default", orNull id a.fallback)]

end Annotations

end SchemaTree
