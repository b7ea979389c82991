import SchemaTree.Descriptor

/-!
# Catalog files

A catalog file is a JSON document `{"types": {alias: definition, …}}`.  A
definition has an optional name, an optional description and a list of fields; a
field has a name, a type word, an optional word for its items, and its
annotations beside them in the same object.

* `Definitions.ofText`, `Definitions.ofValue`: the definitions of a document, or
  why it is refused.  **Of a text only the first value is looked at, and a repeated
  alias keeps the definition written last.**
* Annotations are set aside and looked at only when the whole object of their
  field has been read, so a missing `name` or `type` is reported before a wrong
  annotation.  Behind the name of a kind that was set aside, an empty object is as
  good as `null` (`Annotations.decodeKindAside`).
-/

namespace SchemaTree

open Json

/-- A field as a catalog file writes it. -/
structure FieldDefinition where
  name : String
  type : String
  items : Option String := none
  annotations : Annotations := {}
  deriving DecidableEq, Repr, Inhabited

/-- A type as a catalog file writes it. -/
structure TypeDefinition where
  name : Option String := none
  description : Option String := none
  fields : List FieldDefinition := []
  deriving DecidableEq, Repr, Inhabited

/-- Types by alias, in the order of the file. -/
abbrev Definitions := List (String × TypeDefinition)

/-! ## Fields -/

namespace FieldDefinition

/-- A field as far as it has been read; `rest` holds the other entries, in order. -/
structure Draft where
  name : Option String := none
  type : Option String := none
  items : Option (Option String) := none
  rest : List (String × Reading) := []

/-- Whether a draft has a member already. -/
def Draft.has (d : Draft) : String → Bool
  | "name" => d.name.isSome
  | "type" => d.type.isSome
  | "items" => d.items.isSome
  | _ => false

/-- Adds an entry to a draft. An entry of another name is set aside as it is written; it only has to
be readable. -/
def Draft.add (d : Draft) (key : String) (r : Reading) : Decoded Draft :=
  match key with
  | "name" => r.asString.map fun s => { d with name := some s }
  | "type" => r.asString.map fun s => { d with type := some s }
  | "items" => (r.asOption Reading.asString).map fun s => { d with items := some s }
  | _ => r.asValue.map fun _ => { d with rest := d.rest ++ [(key, r.unplaced)] }

/-- Reads the entries of a field. -/
def Draft.read (d : Draft) : Entries → Decoded (Draft × Mark)
  | .close stop => .ok (d, stop)
  | .broken fault => .error (fault.refusal [.unknown])
  | .keyOnly key fault =>
    if d.has key.name then refuse (.duplicateField key.name) key.mark
    else .error (fault.refusal [])
  | .entry key value _ tail =>
    if d.has key.name then refuse (.duplicateField key.name) key.mark
    else
      match within (.key key.name) (d.add key.name value) with
      | .error r => .error r
      | .ok d => d.read tail

/-- Decodes annotations from the other entries of a field. -/
def annotationsOf (rest : List (String × Reading)) : Decoded Annotations :=
  let known := rest.filter fun (key, _) => Annotations.names.contains key
  let entries := known.foldr (fun (key, r) => Entries.entry ⟨key, none, none⟩ r none)
    (Entries.close none)
  match entries.record (Annotations.form Annotations.decodeKindAside) {} [] with
  | .ok written => .ok written.value
  | .error r => .error { r with path := [] }

/-- Finishes a draft at the end of its object. -/
def Draft.finish (d : Draft) (stop : Mark) : Decoded FieldDefinition :=
  match d.name, d.type with
  | none, _ => refuse (.missingField "name") stop
  | _, none => refuse (.missingField "type") stop
  | some name, some type =>
    (placedAt stop (annotationsOf d.rest)).map fun annotations =>
      { name, type, items := d.items.join, annotations }

/-- Decodes a field. -/
def decode : Reading → Decoded FieldDefinition
  | .object _ entries =>
    match Draft.read {} entries with
    | .ok (d, stop) => d.finish stop
    | .error r => .error r
  | .broken .object _ fault => .error (fault.refusal [])
  | r => r.mismatch "struct RawField"

end FieldDefinition

/-! ## Types -/

namespace TypeDefinition

/-- Sets a member of a type. -/
def set (d : TypeDefinition) (name : String) (r : Reading) : Decoded TypeDefinition :=
  match name with
  | "name" => (r.asOption Reading.asString).map fun s => { d with name := s }
  | "description" => (r.asOption Reading.asString).map fun s => { d with description := s }
  | "fields" => (r.asList FieldDefinition.decode).map fun fs => { d with fields := fs }
  | _ => .ok d

/-- A type as a record whose members are all optional. -/
def form : RecordForm TypeDefinition where
  expected := "struct TypeDef"
  names := ["name", "description", "fields"]
  closed := true
  set := set

/-- Decodes a type. -/
def decode (r : Reading) : Decoded TypeDefinition := (r.record form {}).map (·.value)

end TypeDefinition

/-! ## Whole files -/

namespace Definitions

/-- A catalog file as a record of one member. -/
def form : RecordForm Definitions where
  expected := "struct CatalogFile"
  names := ["types"]
  closed := true
  set := fun _ _ r => r.asMap TypeDefinition.decode

/-- Decodes a catalog file. -/
def decode (r : Reading) : Decoded Definitions :=
  match r.record form [] with
  | .error refusal => .error refusal
  | .ok written =>
    if written.seen.isEmpty then
      match r with
      | .array _ _ => refuse (.invalidLength 0 "struct CatalogFile with 1 element") written.stop
      | _ => refuse (.missingField "types") written.stop
    else .ok written.value

/-- The definitions in a text, of which only the first value is looked at. -/
def ofText (text : String) : Decoded Definitions := decode (Reading.ofText text).1

/-- The definitions in a value. -/
def ofValue (v : Value) : Decoded Definitions := decode (Reading.ofValue v)

end Definitions

end SchemaTree
