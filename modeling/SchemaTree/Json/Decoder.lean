import SchemaTree.Json.Reader
import SchemaTree.Text.Quoted

/-!
# Decoding readings

A decoder turns a `Reading` into data of a type of its own, or refuses it.  A
`Refusal` says what is wrong, on which path from the root, and at which place of
the text if there is one:

* behind a value of the wrong kind, but before the bracket of a wrong array or
  object;
* behind a key that is unknown or repeated;
* behind the closing bracket where something is missing inside.

Records can be written as objects or as arrays of their members in order
(`Reading.record`).
-/

namespace SchemaTree.Json

/-! ## Refusals -/

/-- A step of a path into a document. -/
inductive Step where
  | key (name : String)
  | index (i : Nat)
  | unknown
  deriving DecidableEq, Repr

/-- A path as text: keys are joined by points, indices stand in brackets. -/
def Step.pathText : List Step → String
  | [] => "."
  | steps =>
    let one (first : Bool) : Step → String
      | .key name => (if first then "" else ".") ++ name
      | .index i => "[" ++ toString i ++ "]"
      | .unknown => (if first then "" else ".") ++ "?"
    match steps with
    | [] => ""
    | s :: rest => one true s ++ String.join (rest.map (one false))

/-- What was found where something else was expected. -/
inductive Found where
  | null
  | bool (b : Bool)
  | integer (i : Int)
  | double (d : Double)
  | string (s : String)
  | array
  | object
  deriving Repr

def Found.message : Found → String
  | null => "null"
  | bool b => "boolean `" ++ (if b then "true" else "false") ++ "`"
  | integer i => "integer `" ++ toString i ++ "`"
  | double d => "floating point `" ++ d.render ++ "`"
  | string s => "string " ++ Text.quoted s
  | array => "sequence"
  | object => "map"

/-- Why a document is refused. -/
inductive Cause where
  | unreadable (complaint : Complaint)
  | invalidType (found : Found) (expected : String)
  | invalidValue (found : Found) (expected : String)
  | invalidLength (length : Nat) (expected : String)
  | missingField (name : String)
  | duplicateField (name : String)
  | unknownField (name : String) (known : List String)
  | unknownVariant (name : String) (known : List String)
  deriving Repr

/-- A choice of names. -/
def oneOf : List String → String
  | [a] => "`" ++ a ++ "`"
  | [a, b] => "`" ++ a ++ "` or `" ++ b ++ "`"
  | names => "one of " ++ ", ".intercalate (names.map fun a => "`" ++ a ++ "`")

/-- The wording of a cause. -/
def Cause.message : Cause → String
  | unreadable complaint => complaint.message
  | invalidType found expected => "invalid type: " ++ found.message ++ ", expected " ++ expected
  | invalidValue found expected => "invalid value: " ++ found.message ++ ", expected " ++ expected
  | invalidLength n expected => "invalid length " ++ toString n ++ ", expected " ++ expected
  | missingField name => "missing field `" ++ name ++ "`"
  | duplicateField name => "duplicate field `" ++ name ++ "`"
  | unknownField name known => "unknown field `" ++ name ++ "`, expected " ++ oneOf known
  | unknownVariant name known => "unknown variant `" ++ name ++ "`, expected " ++ oneOf known

/-- A refused document. -/
structure Refusal where
  path : List Step
  cause : Cause
  place : Mark
  deriving Repr

/-- The wording of a refusal, without its path. -/
def Refusal.message (r : Refusal) : String :=
  r.cause.message ++ (r.place.map Place.message).getD ""

/-- The result of decoding. -/
abbrev Decoded (α : Type) := Except Refusal α

/-- A fault of the text as a refusal. -/
def Fault.refusal (f : Fault) (path : List Step) : Refusal :=
  ⟨path, .unreadable f.complaint, some f.place⟩

/-- Refuses a document at its root. -/
def refuse {α : Type} (cause : Cause) (place : Mark) : Decoded α := .error ⟨[], cause, place⟩

/-- Decodes a part that is reached by a step. -/
def within {α : Type} (step : Step) : Decoded α → Decoded α
  | .ok a => .ok a
  | .error r => .error { r with path := step :: r.path }

/-- Gives a refusal without a place one. -/
def placedAt {α : Type} (place : Mark) : Decoded α → Decoded α
  | .ok a => .ok a
  | .error r => .error { r with place := r.place <|> place }

/-! ## Values without parts -/

def Scalar.found : Scalar → Found
  | null => .null
  | bool b => .bool b
  | number (.integer i) => .integer i
  | number (.double d) => .double d
  | string s => .string s

namespace Reading

/-- Refuses a reading of the wrong kind. -/
def mismatch {α : Type} (expected : String) : Reading → Decoded α
  | scalar v _ stop => refuse (.invalidType v.found expected) stop
  | array start _ => refuse (.invalidType .array expected) start
  | object start _ => refuse (.invalidType .object expected) start
  | broken .array start _ => refuse (.invalidType .array expected) (some start)
  | broken .object start _ => refuse (.invalidType .object expected) (some start)
  | broken _ _ fault => .error (fault.refusal [])

def asString : Reading → Decoded String
  | scalar (.string s) _ _ => .ok s
  | r => r.mismatch "a string"

def asBool : Reading → Decoded Bool
  | scalar (.bool b) _ _ => .ok b
  | r => r.mismatch "a boolean"

/-- A number of any form, as a double. -/
def asDouble : Reading → Decoded Double
  | scalar (.number (.integer i)) _ _ => .ok (.ofInt i)
  | scalar (.number (.double d)) _ _ => .ok d
  | r => r.mismatch "f64"

/-- An integer from 0 on. -/
def asNatural : Reading → Decoded Nat
  | scalar (.number (.integer i)) _ stop =>
    if 0 ≤ i then .ok i.toNat else refuse (.invalidValue (.integer i) "u64") stop
  | r => r.mismatch "u64"

/-- Reads `null` as nothing. -/
def asOption {α : Type} (decode : Reading → Decoded α) : Reading → Decoded (Option α)
  | scalar .null _ _ => .ok none
  | broken .null _ fault => .error (fault.refusal [])
  | r => (decode r).map some

end Reading

/-! ## Values of any kind -/

mutual

/-- Decodes a value of any kind; a repeated key takes the last value. -/
def Reading.asValue : Reading → Decoded Value
  | .scalar v _ _ => .ok v.toValue
  | .array _ items => (items.asValues 0).map .array
  | .object _ entries => (entries.asMembers []).map .object
  | .broken _ _ fault => .error (fault.refusal [])

def Items.asValues (index : Nat) : Items → Decoded (List Value)
  | .close _ => .ok []
  | .broken fault => .error (fault.refusal [])
  | .item head tail =>
    match within (.index index) head.asValue with
    | .error r => .error r
    | .ok v => (tail.asValues (index + 1)).map (v :: ·)

def Entries.asMembers (members : Members) : Entries → Decoded Members
  | .close _ => .ok members
  | .broken fault => .error (fault.refusal [.unknown])
  | .keyOnly _ fault => .error (fault.refusal [])
  | .entry key value _ tail =>
    match within (.key key.name) value.asValue with
    | .error r => .error r
    | .ok v => tail.asMembers (Members.insert key.name v members)

end

/-! ## Lists and maps -/

/-- Decodes the items of an array. -/
def Items.decode {α : Type} (decode : Reading → Decoded α) (index : Nat) : Items → Decoded (List α)
  | .close _ => .ok []
  | .broken fault => .error (fault.refusal [])
  | .item head tail =>
    match within (.index index) (decode head) with
    | .error r => .error r
    | .ok a => (tail.decode decode (index + 1)).map (a :: ·)

/-- Decodes an array. -/
def Reading.asList {α : Type} (decode : Reading → Decoded α) : Reading → Decoded (List α)
  | array _ items => items.decode decode 0
  | broken .array _ fault => .error (fault.refusal [])
  | r => r.mismatch "a sequence"

/-- Decodes the entries of an object; a repeated key keeps its place and takes the last value. -/
def Entries.decode {α : Type} (decode : Reading → Decoded α) (members : List (String × α)) :
    Entries → Decoded (List (String × α))
  | .close _ => .ok members
  | .broken fault => .error (fault.refusal [.unknown])
  | .keyOnly _ fault => .error (fault.refusal [])
  | .entry key value _ tail =>
    match within (.key key.name) (decode value) with
    | .error r => .error r
    | .ok a => tail.decode decode (Members.insert key.name a members)

/-- Decodes an object with keys of any name. -/
def Reading.asMap {α : Type} (decode : Reading → Decoded α) :
    Reading → Decoded (List (String × α))
  | object _ entries => entries.decode decode []
  | broken .object _ fault => .error (fault.refusal [])
  | r => r.mismatch "a map"

/-! ## Named choices -/

/-- The value behind the name of a choice has to be `null`. -/
def Reading.asNothing : Reading → Decoded Unit
  | scalar .null _ _ => .ok ()
  | r => r.mismatch "unit"

/-- In what was set aside to be decoded later, an empty object can stand for `null` there. -/
def Reading.asNothingAside : Reading → Decoded Unit
  | object _ (.close _) => .ok ()
  | r => r.asNothing

/-- Looks a name up. -/
def choose {α : Type} (names : List String) (choice : String → Option α) (name : String)
    (place : Mark) : Decoded α :=
  match choice name with
  | some a => .ok a
  | none => refuse (.unknownVariant name names) place

/-- Decodes a choice in memory: its name, or an object with the name as its only key and nothing
behind it. -/
def Reading.asStoredChoice {α : Type} (nothing : Reading → Decoded Unit) (names : List String)
    (choice : String → Option α) : Reading → Decoded α
  | scalar (.string s) _ _ => choose names choice s none
  | object _ (.entry key value _ (.close _)) => do
    let a ← choose names choice key.name none
    nothing value
    return a
  | object _ _ => refuse (.invalidValue .object "map with a single key") none
  | r => r.mismatch "string or map"

/-- The complaint about a text in which a value does not begin as it has to. -/
def Reading.noValue {α : Type} (start : Place) : Decoded α :=
  .error ((⟨.valueExpected, ⟨start.line, start.column + 1⟩⟩ : Fault).refusal [])

/-- What a text has to hold behind the only entry of a choice, whose value ends at `behind`. -/
def Entries.endOfChoice (behind : Mark) : Entries → Decoded Unit
  | .close _ => .ok ()
  | .broken ⟨.endInObject, place⟩ => refuse (.unreadable .endInObject) (some place)
  | _ => refuse (.unreadable .valueExpected) behind

/-- The complaint of a choice about what stands for its only key. -/
def Fault.ofChoiceKey (fault : Fault) : Fault :=
  match fault.complaint with
  | .endInObject => ⟨.endInValue, fault.place⟩
  | .keyNotString => ⟨.valueExpected, fault.place⟩
  | _ => fault

/-- Decodes a choice in a text. -/
def Reading.asWrittenChoice {α : Type} (names : List String) (choice : String → Option α) :
    Reading → Decoded α
  | scalar (.string s) _ stop => choose names choice s stop
  | object _ (.entry key value behind tail) => do
    let a ← choose names choice key.name key.stop
    value.asNothing
    tail.endOfChoice behind
    return a
  | object _ (.keyOnly key fault) => do
    let _ ← choose names choice key.name key.stop
    .error (fault.refusal [])
  | object _ (.broken fault) => .error (fault.ofChoiceKey.refusal [])
  | object _ (.close stop) => refuse (.unreadable .valueExpected) stop
  | scalar _ (some start) _ => noValue start
  | array (some start) _ => noValue start
  | broken .string _ fault => .error (fault.refusal [])
  | broken .object _ fault => .error (fault.refusal [])
  | broken .stray _ fault => .error (fault.refusal [])
  | broken _ start _ => noValue start
  | r => r.mismatch "string or map"

/-- Decodes a choice among names. -/
def Reading.asChoice {α : Type} (names : List String) (choice : String → Option α)
    (r : Reading) : Decoded α :=
  if r.start.isSome then r.asWrittenChoice names choice
  else r.asStoredChoice asNothing names choice

/-! ## Records -/

/-- A type whose values are built up member by member. -/
structure RecordForm (α : Type) where
  /-- The text for what is expected. -/
  expected : String
  /-- The names of the members, in the order in which an array lists them. -/
  names : List String
  /-- Whether other keys are refused. -/
  closed : Bool
  /-- Sets a member. -/
  set : α → String → Reading → Decoded α

/-- A record as far as it was written: its value, the members that were there, and the end. -/
structure Written (α : Type) where
  value : α
  seen : List String
  stop : Mark

/-- Decodes the entries of an object into a record; of unwanted entries only the syntax counts. -/
def Entries.record {α : Type} (form : RecordForm α) (value : α) (seen : List String) :
    Entries → Decoded (Written α)
  | .close stop => .ok ⟨value, seen, stop⟩
  | .broken fault => .error (fault.refusal [.unknown])
  | .keyOnly ⟨name, _, mark⟩ fault =>
    if form.closed && !form.names.contains name then
      within (.key name) (refuse (.unknownField name form.names) mark)
    else if seen.contains name then refuse (.duplicateField name) mark
    else .error (fault.refusal [])
  | .entry ⟨name, _, mark⟩ v _ tail =>
    if form.names.contains name then
      if seen.contains name then refuse (.duplicateField name) mark
      else
        match within (.key name) (form.set value name v) with
        | .error r => .error r
        | .ok value => tail.record form value (name :: seen)
    else if form.closed then within (.key name) (refuse (.unknownField name form.names) mark)
    else
      match v with
      | .broken _ _ fault => .error (fault.refusal [.key name])
      | _ => tail.record form value seen

/-- What is wrong with items that nobody takes. -/
def Items.surplus (count : Nat) : Items → Decoded Mark
  | .close stop => .ok stop
  | .broken fault =>
    match fault.complaint with
    | .trailingComma => .error (fault.refusal [])
    | .endInArray => .error (fault.refusal [])
    | _ => .error ((⟨.trailingCharacters, fault.place⟩ : Fault).refusal [])
  | .item head tail =>
    match head.start with
    | some p =>
      .error ((⟨.trailingCharacters, ⟨p.line, p.column + 1⟩⟩ : Fault).refusal [])
    | none => refuse (.invalidLength (count + 1 + tail.count) "fewer elements in array") none

/-- Decodes the items of an array into the members of a record, in order. -/
def Items.record {α : Type} (form : RecordForm α) (value : α) (seen : List String) (index : Nat) :
    List String → Items → Decoded (Written α)
  | [], items => (items.surplus index).map fun stop => ⟨value, seen, stop⟩
  | _ :: _, .close stop => .ok ⟨value, seen, stop⟩
  | _ :: _, .broken fault => .error (fault.refusal [])
  | name :: names, .item head tail =>
    match within (.index index) (form.set value name head) with
    | .error r => .error r
    | .ok value => tail.record form value (name :: seen) (index + 1) names

/-- Decodes a record from an object, or from an array of its members in order. -/
def Reading.record {α : Type} (form : RecordForm α) (initial : α) :
    Reading → Decoded (Written α)
  | object _ entries => entries.record form initial []
  | array _ items => items.record form initial [] 0 form.names
  | broken .object _ fault => .error (fault.refusal [])
  | broken .array _ fault => .error (fault.refusal [])
  | r => r.mismatch form.expected

/-! ## Whole texts -/

/-- Decodes a text that must hold nothing else. -/
def decodeWhole {α : Type} (decode : Reading → Decoded α)
    (read : Reading × Except Fault Cursor) : Decoded α := do
  let a ← decode read.1
  match read.2 with
  | .error fault => .error (fault.refusal [])
  | .ok cursor =>
    match cursor.checkEnd with
    | .ok () => return a
    | .error fault => .error (fault.refusal [])

/-- The value that a text denotes. -/
def Value.ofText (text : String) : Decoded Value :=
  decodeWhole Reading.asValue (Reading.ofText text)

end SchemaTree.Json
