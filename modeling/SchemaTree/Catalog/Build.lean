import SchemaTree.Catalog.Definition
import SchemaTree.Catalog.Error

/-!
# Building a catalog

A catalog is built from definitions in two passes: first all aliases with their
identities, then the fields, whose references may go to any alias.  Each pass
stops at the first offence.

* An alias is a word of letters, digits and underscores that starts with no
  digit and is no name of a kind.
* The identity of a type is its name, or its alias if it has none; no two types
  share one.
* `Shape.ofWords`: the shape that the words of a field denote.
-/

namespace SchemaTree

/-! ## Aliases -/

/-- The identities of the aliases of a catalog, in order. -/
abbrev Aliases := List (String × TypeId)

/-- Whether a character can start an alias. -/
def isAliasStart (c : Char) : Bool := c.isAlpha || c = '_'

/-- Whether a text is a word that can name a type. -/
def isWord (s : String) : Bool :=
  match s.toList with
  | [] => false
  | c :: rest => isAliasStart c && rest.all fun d => isAliasStart d || d.isDigit

/-- The identity of a type. -/
def TypeDefinition.identity (aliasName : String) (d : TypeDefinition) : TypeId :=
  ⟨d.name.getD aliasName⟩

/-- Adds the aliases of definitions to those known. -/
def Aliases.add (known : Aliases) : Definitions → Except CatalogError Aliases
  | [] => .ok known
  | (aliasName, d) :: rest =>
    if !isWord aliasName || (Kind.ofName? aliasName).isSome then .error (.invalidAlias aliasName)
    else if known.any (·.2 = d.identity aliasName) then
      .error (.duplicateAlias (d.identity aliasName).name)
    else Aliases.add (known ++ [(aliasName, d.identity aliasName)]) rest

/-! ## Shapes -/

/-- The shape of one word: a kind, or an alias. -/
def Shape.ofWord (aliases : Aliases) (owner field word : String) : Except CatalogError Shape :=
  match Kind.ofName? word with
  | some k => .ok (.kind k)
  | none =>
    match Json.Members.get? aliases word with
    | some target => .ok (.entity target)
    | none => .error (.danglingReference owner field word)

/-- The shape of the items of an array. -/
def Shape.ofItems (aliases : Aliases) (owner field : String) :
    Option String → Except CatalogError Shape
  | none => .ok (.kind .any)
  | some "array" =>
    .error (.unusableType owner field "arrays of arrays must wrap the inner array in an entity")
  | some word => Shape.ofWord aliases owner field word

/-- The shape of the type word of a field and of the word for its items. -/
def Shape.ofWords (aliases : Aliases) (owner field type : String) (items : Option String) :
    Except CatalogError Shape :=
  match type, items with
  | "array", items => (Shape.ofItems aliases owner field items).map .collection
  | "object", some word =>
    match Json.Members.get? aliases word with
    | some target => .ok (.entity target)
    | none =>
      if (Kind.ofName? word).isSome then
        .error (.unusableType owner field
          ("`items: " ++ word ++ "` on an object must name an entity"))
      else .error (.danglingReference owner field word)
  | _, some word =>
    .error (.unusableType owner field
      ("`items: " ++ word ++ "` is only valid on arrays and objects"))
  | type, none => Shape.ofWord aliases owner field type

/-! ## Catalogs -/

/-- A type of a catalog. -/
structure CatalogType where
  aliasName : String
  identity : TypeId
  description : Option String
  fields : List Descriptor
  deriving Repr, Inhabited

/-- The types of a catalog, in the order of their aliases. -/
structure Catalog where
  types : List CatalogType
  deriving Repr, Inhabited

/-- The fields of a type; `seen` holds the names before. -/
def buildFields (aliases : Aliases) (owner : String) (seen : List String) :
    List FieldDefinition → Except CatalogError (List Descriptor)
  | [] => .ok []
  | f :: rest =>
    if seen.contains f.name then .error (.duplicateField owner f.name)
    else
      match Shape.ofWords aliases owner f.name f.type f.items with
      | .error e => .error e
      | .ok shape =>
        (buildFields aliases owner (f.name :: seen) rest).map
          (⟨f.name, shape, f.annotations⟩ :: ·)

/-- The types of definitions. -/
def buildTypes (aliases : Aliases) : Definitions → Except CatalogError (List CatalogType)
  | [] => .ok []
  | (aliasName, d) :: rest =>
    match buildFields aliases aliasName [] d.fields with
    | .error e => .error e
    | .ok fields =>
      (buildTypes aliases rest).map (⟨aliasName, d.identity aliasName, d.description, fields⟩ :: ·)

namespace Catalog

/-- The catalog of definitions. -/
def build (defs : Definitions) : Except CatalogError Catalog :=
  match Aliases.add [] defs with
  | .error e => .error e
  | .ok aliases => (buildTypes aliases defs).map (⟨·⟩)

/-- The catalog that decoded definitions make. -/
def ofDecoded : Json.Decoded Definitions → Except CatalogError Catalog
  | .ok defs => build defs
  | .error r => .error (.malformed r)

/-- The catalog in a text. -/
def ofText (text : String) : Except CatalogError Catalog := ofDecoded (Definitions.ofText text)

/-- The catalog in a value. -/
def ofValue (v : Json.Value) : Except CatalogError Catalog := ofDecoded (Definitions.ofValue v)

/-! ## Looking things up -/

def aliases (c : Catalog) : List String := c.types.map (·.aliasName)

/-- The type with an alias. -/
def byAlias? (c : Catalog) (aliasName : String) : Option CatalogType :=
  c.types.find? (·.aliasName = aliasName)

/-- The type with an identity. -/
def byIdentity? (c : Catalog) (t : TypeId) : Option CatalogType :=
  c.types.find? (·.identity = t)

end Catalog

end SchemaTree
