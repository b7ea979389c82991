import SchemaTree.Json.Value
import SchemaTree.Kind

/-!
# Checking schema documents

`Check.document` goes through a document and lists what breaks the rules of the
schemas that a compiler writes: the rules of the root first, then those of each
node, **a node before its properties, its properties in order, then its items**.
Every violation carries the pointer of its node, in which `~` is written `~0` and
`/` is written `~1`.

Which patterns are rejected, and why, is a parameter.
-/

namespace SchemaTree

open Json

/-- A broken rule, and the pointer to where it is broken. -/
structure Violation where
  pointer : String
  message : String
  deriving DecidableEq, Repr

/-- A violation on one line. -/
def Violation.line (v : Violation) : String :=
  (if v.pointer.isEmpty then "/" else v.pointer) ++ ": " ++ v.message

/-- The wording of a rejected document. -/
def Violation.summary (vs : List Violation) : String :=
  "schema document has " ++ toString vs.length ++ " violation(s)" ++
    match vs with
    | [] => ""
    | v :: _ => "; first: " ++ v.line

namespace Check

/-! ## Pointers -/

/-- A character of a name within a pointer. -/
def escapeChar : Char → List Char
  | '~' => ['~', '0']
  | '/' => ['~', '1']
  | c => [c]

/-- A name as a segment of a pointer. -/
def segment (name : String) : String := String.ofList (name.toList.flatMap escapeChar)

/-- The pointer to a property of a node. -/
def propertyPointer (pointer name : String) : String :=
  pointer ++ "/properties/" ++ segment name

/-- The pointer to the items of a node. -/
def itemsPointer (pointer : String) : String := pointer ++ "/items"

/-! ## The rules of one node -/

/-- A message if the value of a key is there and fails a test. -/
def ruleOn (node : Members) (key : String) (ok : Value → Bool) (message : String) : List String :=
  match Members.get? node key with
  | some v => if ok v then [] else [message]
  | none => []

/-- The rule on references and types; `root` tells whether the node is the root of its document,
where the type is checked apart. -/
def typeRule (root : Bool) (node : Members) : List String :=
  match Members.get? node "$ref" with
  | some reference => if reference.asString?.isSome then [] else ["`$ref` must be a string"]
  | none =>
    match Members.get? node "type" with
    | some (.string t) =>
      if (Kind.ofName? t).isSome then [] else ["unknown type `" ++ t ++ "`"]
    | some _ => ["`type` must be a string"]
    | none => if root then [] else ["property needs `type` or `$ref`"]

/-- The rule on patterns. -/
def patternRule (rejection : String → Option String) (node : Members) : List String :=
  match Members.get? node "pattern" with
  | some (.string p) =>
    match rejection p with
    | some reason => ["`pattern` does not compile: " ++ reason]
    | none => []
  | some _ => ["`pattern` must be a string"]
  | none => []

/-- What is wrong with a node itself, apart from the nodes inside it. -/
def ownRules (rejection : String → Option String) (root : Bool) (node : Members) : List String :=
  typeRule root node ++
  ruleOn node "required" Value.isBool "`required` must be a boolean" ++
  ruleOn node "minimum" Value.isNumber "`minimum` must be a number" ++
  ruleOn node "maximum" Value.isNumber "`maximum` must be a number" ++
  ruleOn node "minLength" Value.isNatural "`minLength` must be a non-negative integer" ++
  ruleOn node "maxLength" Value.isNatural "`maxLength` must be a non-negative integer" ++
  patternRule rejection node ++
  ruleOn node "enum" (fun v => (v.asArray?.map (!·.isEmpty)).getD false)
    "`enum` must be a non-empty array"

/-! ## All nodes -/

mutual

/-- The violations of a value that has to be a schema object, and of all nodes inside. -/
def node (rejection : String → Option String) (pointer otherwise : String) :
    Value → List Violation
  | .object members =>
    (ownRules rejection pointer.isEmpty members).map (⟨pointer, ·⟩) ++
      underProperties rejection pointer members ++ underItems rejection pointer members
  | _ => [⟨pointer, otherwise⟩]

/-- The violations below the key `properties` of a node. -/
def underProperties (rejection : String → Option String) (pointer : String) :
    Members → List Violation
  | [] => []
  | (key, v) :: rest =>
    if key = "properties" then propertiesNode rejection pointer v
    else underProperties rejection pointer rest

/-- The violations below the key `items` of a node. -/
def underItems (rejection : String → Option String) (pointer : String) :
    Members → List Violation
  | [] => []
  | (key, v) :: rest =>
    if key = "items" then
      node rejection (itemsPointer pointer) "`items` must be a schema object" v
    else underItems rejection pointer rest

/-- The violations of a value that has to hold properties. -/
def propertiesNode (rejection : String → Option String) (pointer : String) :
    Value → List Violation
  | .object properties => eachProperty rejection pointer properties
  | _ => [⟨pointer, "`properties` must be an object"⟩]

/-- The violations of properties, one after the other. -/
def eachProperty (rejection : String → Option String) (pointer : String) :
    Members → List Violation
  | [] => []
  | (name, v) :: rest =>
    node rejection (propertyPointer pointer name) "property schema must be an object" v ++
      eachProperty rejection pointer rest

end

/-- The rules that only the root of a document has to keep. -/
def rootRules (root : Members) : List String :=
  (if ((Members.get? root "$schema").bind Value.asString?).isSome then []
    else ["missing `$schema` string"]) ++
  (if (Members.get? root "type").bind Value.asString? = some "object" then []
    else ["root `type` must be \"object\""])

/-- All violations of a document. -/
def document (rejection : String → Option String) : Value → List Violation
  | .object members =>
    (rootRules members).map (⟨"", ·⟩) ++
      node rejection "" "document root must be an object" (.object members)
  | _ => [⟨"", "document root must be an object"⟩]

end Check

end SchemaTree
