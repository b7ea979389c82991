import SchemaTree.Json.Reading

/-!
# Reading a JSON text

`Reader.value` reads the value at the start of a text by recursive descent.  It
never fails: what is wrong with the text stands in the reading, at the point
where a decoder would meet it.  Behind the value it stops, so that the caller
decides whether more text may follow.

* Numbers follow `Number.ofLiteral`; their faults are those of the literal.
* Surrogates in escapes have to come in pairs.
* A text may open `limit` brackets within each other and no more.
* `Reader.skim` passes over a value whose contents nobody wants; it checks the
  syntax only, neither the range of numbers, nor surrogates, nor nesting.
-/

namespace SchemaTree.Json

namespace Reader

open Cursor

/-! ## Words and numbers -/

/-- Passes over the rest of a word such as `null`, character by character. -/
def word (place : Place) : List Char → List Char → Except Fault Cursor
  | [], rest => .ok ⟨rest, place⟩
  | _ :: _, [] => .error ⟨.endInValue, place⟩
  | w :: ws, c :: rest =>
    if c = w then word (place.after c) ws rest
    else .error ((⟨c :: rest, place⟩ : Cursor).complain .wordExpected)

/-- Passes over a character if it comes next. -/
def pass? (wanted : Char) (c : Cursor) : Option Cursor :=
  match c.rest with
  | d :: rest => if d = wanted then some ⟨rest, c.place.after d⟩ else none
  | [] => none

/-- The whole part of a number: a zero alone, or digits that do not start with one. -/
def wholePart (atEnd : Complaint) (c : Cursor) : Except Fault (List Nat × Cursor) :=
  match c.rest with
  | [] => .error ⟨atEnd, c.place⟩
  | '0' :: rest =>
    let after : Cursor := ⟨rest, c.place.after '0'⟩
    if (rest.head?.map Char.isDigit).getD false then .error (after.complain .invalidNumber)
    else .ok ([0], after)
  | d :: _ => if d.isDigit then .ok c.digits else .error (c.complain .invalidNumber)

/-- The fraction of a number, if a point follows. -/
def fractionPart (atEnd : Complaint) (c : Cursor) : Except Fault (Option (List Nat) × Cursor) :=
  match pass? '.' c with
  | none => .ok (none, c)
  | some c =>
    match c.digits with
    | ([], after) =>
      if after.rest.isEmpty then .error ⟨atEnd, after.place⟩
      else .error (after.complain .invalidNumber)
    | (ds, after) => .ok (some ds, after)

/-- The exponent of a number, if one follows: whether it is negative, its digits, and where these
start. -/
def exponentPart (atEnd : Complaint) (c : Cursor) :
    Except Fault (Option (Bool × List Nat × Place) × Cursor) :=
  match pass? 'e' c <|> pass? 'E' c with
  | none => .ok (none, c)
  | some c =>
    let (negative, c) :=
      match pass? '+' c, pass? '-' c with
      | some c, _ => (false, c)
      | none, some c => (true, c)
      | none, none => (false, c)
    match c.digits with
    | ([], after) =>
      if after.rest.isEmpty then .error ⟨atEnd, after.place⟩
      else .error (after.complain .invalidNumber)
    | (ds, after) => .ok (some (negative, ds, c.place), after)

/-- The number of digits up to the one with which an exponent passes its limit. -/
def exponentReach (value : Nat) : List Nat → Nat
  | [] => 0
  | d :: ds =>
    if value * 10 + d ≤ Number.maxExponent then exponentReach (value * 10 + d) ds + 1 else 1

/-- Reads the literal of a number; `atEnd` is the complaint about a text that ends within. -/
def literal (atEnd : Complaint) (c : Cursor) :
    Except Fault (Literal × Option Place × Cursor) := do
  let (negative, c) :=
    match pass? '-' c with
    | some c => (true, c)
    | none => (false, c)
  let (whole, c) ← wholePart atEnd c
  let (fraction, c) ← fractionPart atEnd c
  let (exponent, c) ← exponentPart atEnd c
  let reach := exponent.map fun (_, ds, start) =>
    if (Number.exponentOf 0 ds).isSome then c.place
    else ⟨start.line, start.column + exponentReach 0 ds⟩
  return (⟨negative, whole, fraction, exponent.map fun (n, ds, _) => (n, ds)⟩, reach, c)

/-- Reads a number. -/
def number (c : Cursor) : Except Fault (Number × Cursor) := do
  let (l, reach, after) ← literal .endInValue c
  match Number.ofLiteral l with
  | some n => return (n, after)
  | none => throw ⟨.numberOutOfRange, reach.getD after.place⟩

/-! ## Strings -/

/-- The value of a hexadecimal digit. -/
def hexValue? (c : Char) : Option Nat :=
  if c.isDigit then some (c.toNat - 48)
  else if 'a' ≤ c && c ≤ 'f' then some (c.toNat - 87)
  else if 'A' ≤ c && c ≤ 'F' then some (c.toNat - 55)
  else none

/-- The value of four hexadecimal digits. -/
def hexFour? (a b c d : Char) : Option Nat := do
  return (((← hexValue? a) * 16 + (← hexValue? b)) * 16 + (← hexValue? c)) * 16 + (← hexValue? d)

/-- The character that a short escape stands for. -/
def shortEscape? : Char → Option Char
  | '"' => some '"'
  | '\\' => some '\\'
  | '/' => some '/'
  | 'b' => some '\x08'
  | 'f' => some '\x0c'
  | 'n' => some '\n'
  | 'r' => some '\r'
  | 't' => some '\t'
  | _ => none

/-- The complaint about a hexadecimal escape that starts with `rest` and has no four digits. -/
def badHex (place : Place) (rest : List Char) : Fault :=
  if 4 ≤ byteLength rest then ⟨.invalidEscape, skipBytes place 4 rest⟩
  else ⟨.endInString, finish place rest⟩

/-- The complaint about what follows the first half of a surrogate pair. -/
def badPair (place : Place) : List Char → Fault
  | [] => ⟨.endInString, place⟩
  | ['\\'] => ⟨.endInString, place.after '\\'⟩
  | '\\' :: rest => (⟨rest, place.after '\\'⟩ : Cursor).complain .escapePairExpected
  | rest => (⟨rest, place⟩ : Cursor).complain .escapePairExpected

/-- The place behind `n` characters of one byte. -/
def Place.forward (p : Place) (n : Nat) : Place := ⟨p.line, p.column + n⟩

/-- Adds a character in front of what has been read. -/
def push (c : Char) : Except Fault (List Char × Cursor) → Except Fault (List Char × Cursor)
  | .ok (cs, after) => .ok (c :: cs, after)
  | .error f => .error f

/-- Reads a string from behind its opening quote. -/
def stringFrom (place : Place) : List Char → Except Fault (List Char × Cursor)
  | [] => .error ⟨.endInString, place⟩
  | '"' :: rest => .ok ([], ⟨rest, place.after '"'⟩)
  | ['\\'] => .error ⟨.endInString, place.after '\\'⟩
  | '\\' :: 'u' :: a :: b :: c :: d :: rest =>
    let here := Place.forward place 2
    match hexFour? a b c d with
    | none => .error (badHex here (a :: b :: c :: d :: rest))
    | some n =>
      let here := Place.forward here 4
      if 0xDC00 ≤ n && n ≤ 0xDFFF then .error ⟨.loneSurrogate, here⟩
      else if n < 0xD800 || 0xDBFF < n then push (Char.ofNat n) (stringFrom here rest)
      else
        match rest with
        | '\\' :: 'u' :: a' :: b' :: c' :: d' :: rest' =>
          let there := Place.forward here 2
          match hexFour? a' b' c' d' with
          | none => .error (badHex there (a' :: b' :: c' :: d' :: rest'))
          | some n' =>
            let there := Place.forward there 4
            if n' < 0xDC00 || 0xDFFF < n' then .error ⟨.loneSurrogate, there⟩
            else
              push (Char.ofNat ((n - 0xD800) * 0x400 + (n' - 0xDC00) + 0x10000))
                (stringFrom there rest')
        | '\\' :: 'u' :: rest' => .error (badHex (Place.forward here 2) rest')
        | rest' => .error (badPair here rest')
  | '\\' :: 'u' :: rest => .error (badHex (Place.forward place 2) rest)
  | '\\' :: e :: rest =>
    match shortEscape? e with
    | some c => push c (stringFrom (Place.forward place 2) rest)
    | none => .error ((⟨e :: rest, Place.forward place 1⟩ : Cursor).complain .invalidEscape)
  | c :: rest =>
    if c.toNat < 0x20 then .error ((⟨c :: rest, place⟩ : Cursor).complain .controlCharacter)
    else push c (stringFrom (place.after c) rest)

/-- Reads a string from behind its opening quote. -/
def string (c : Cursor) : Except Fault (String × Cursor) :=
  match stringFrom c.place c.rest with
  | .ok (cs, after) => .ok (String.ofList cs, after)
  | .error f => .error f

/-! ## Skimming -/

/-- Passes over a string without a look at its surrogates. -/
def skimString (place : Place) : List Char → Except Fault Cursor
  | [] => .error ⟨.endInString, place⟩
  | '"' :: rest => .ok ⟨rest, place.after '"'⟩
  | ['\\'] => .error ⟨.endInString, place.after '\\'⟩
  | '\\' :: 'u' :: a :: b :: c :: d :: rest =>
    match hexFour? a b c d with
    | none => .error (badHex (Place.forward place 2) (a :: b :: c :: d :: rest))
    | some _ => skimString (Place.forward place 6) rest
  | '\\' :: 'u' :: rest => .error (badHex (Place.forward place 2) rest)
  | '\\' :: e :: rest =>
    match shortEscape? e with
    | some _ => skimString (Place.forward place 2) rest
    | none => .error ((⟨e :: rest, Place.forward place 1⟩ : Cursor).complain .invalidEscape)
  | c :: rest =>
    if c.toNat < 0x20 then .error ⟨.controlCharacter, place⟩
    else skimString (place.after c) rest

/-- Passes over a key and its colon. -/
def skimKey (c : Cursor) : Except Fault Cursor :=
  let c := c.skipBlanks
  match c.rest with
  | [] => .error (c.complain .endInObject)
  | '"' :: rest => do
    let c := (← skimString (c.place.after '"') rest).skipBlanks
    match c.rest with
    | [] => throw (c.complain .endInObject)
    | ':' :: rest => return ⟨rest, c.place.after ':'⟩
    | _ => throw (c.complain .colonExpected)
  | _ => .error (c.complain .keyNotString)

mutual

/-- Passes over a value. -/
def skim (fuel : Nat) (c : Cursor) : Except Fault Cursor :=
  match fuel with
  | 0 => .ok c
  | fuel + 1 =>
    let c := c.skipBlanks
    match c.rest with
    | [] => .error (c.complain .endInValue)
    | 'n' :: rest => word (c.place.after 'n') "ull".toList rest
    | 't' :: rest => word (c.place.after 't') "rue".toList rest
    | 'f' :: rest => word (c.place.after 'f') "alse".toList rest
    | '"' :: rest => skimString (c.place.after '"') rest
    | '[' :: rest => skimItems fuel true ⟨rest, c.place.after '['⟩
    | '\x7b' :: rest => skimEntries fuel true ⟨rest, c.place.after '\x7b'⟩
    | d :: _ =>
      if d.isDigit || d = '-' then
        match literal .invalidNumber c with
        | .ok (_, _, after) => .ok after
        | .error f => .error f
      else .error (c.complain .valueExpected)

/-- Passes over the items of an array that are left. -/
def skimItems (fuel : Nat) (first : Bool) (c : Cursor) : Except Fault Cursor :=
  match fuel with
  | 0 => .ok c
  | fuel + 1 =>
    let c := c.skipBlanks
    match first, c.rest with
    | _, [] => .error (c.complain .endInArray)
    | _, ']' :: rest => .ok ⟨rest, c.place.after ']'⟩
    | false, ',' :: rest => do skimItems fuel false (← skim fuel ⟨rest, c.place.after ','⟩)
    | true, _ => do skimItems fuel false (← skim fuel c)
    | false, _ => .error (c.complain .commaOrBracketExpected)

/-- Passes over the entries of an object that are left. -/
def skimEntries (fuel : Nat) (first : Bool) (c : Cursor) : Except Fault Cursor :=
  match fuel with
  | 0 => .ok c
  | fuel + 1 =>
    let c := c.skipBlanks
    match first, c.rest with
    | _, [] => .error (c.complain .endInObject)
    | _, '\x7d' :: rest => .ok ⟨rest, c.place.after '\x7d'⟩
    | false, ',' :: rest => do
      skimEntries fuel false (← skim fuel (← skimKey ⟨rest, c.place.after ','⟩))
    | true, _ => do skimEntries fuel false (← skim fuel (← skimKey c))
    | false, _ => .error (c.complain .commaOrBraceExpected)

end

/-! ## Values -/

/-- A reading, and the rest of the text or the fault that hides it. -/
abbrev Outcome (α : Type) := α × Except Fault Cursor

/-- A value that could not be read. -/
def fail (lead : Lead) (start : Place) (fault : Fault) : Outcome Reading :=
  (.broken lead start fault, .error fault)

/-- A value without parts that starts at a place. -/
def scalar (lead : Lead) (start : Place) (parsed : Except Fault (Scalar × Cursor)) :
    Outcome Reading :=
  match parsed with
  | .ok (v, after) => (.scalar v (some start) (some after.place), .ok after)
  | .error fault => fail lead start fault

mutual

/-- Reads a value; `limit` more brackets may be opened, and members whose keys are `unwanted`
are only skimmed. -/
def value (unwanted : String → Bool) (fuel limit : Nat) (c : Cursor) : Outcome Reading :=
  match fuel with
  | 0 => fail .stray c.place (c.complain .endInValue)
  | fuel + 1 =>
    let c := c.skipBlanks
    let start := c.place
    match c.rest with
    | [] => fail .stray start (c.complain .endInValue)
    | 'n' :: rest =>
      scalar .null start ((word (start.after 'n') "ull".toList rest).map ((.null, ·)))
    | 't' :: rest =>
      scalar .bool start ((word (start.after 't') "rue".toList rest).map ((.bool true, ·)))
    | 'f' :: rest =>
      scalar .bool start ((word (start.after 'f') "alse".toList rest).map ((.bool false, ·)))
    | '"' :: rest =>
      scalar .string start
        ((string ⟨rest, start.after '"'⟩).map fun (s, after) => (.string s, after))
    | '[' :: rest =>
      match limit with
      | 0 => fail .array start (c.complain .nestedTooDeep)
      | limit + 1 =>
        let (is, after) := items fuel limit true ⟨rest, start.after '['⟩
        (.array (some start) is, after)
    | '\x7b' :: rest =>
      match limit with
      | 0 => fail .object start (c.complain .nestedTooDeep)
      | limit + 1 =>
        let (es, after) := entries unwanted fuel limit true ⟨rest, start.after '\x7b'⟩
        (.object (some start) es, after)
    | d :: _ =>
      if d.isDigit || d = '-' then
        scalar .number start ((number c).map fun (n, after) => (.number n, after))
      else fail .stray start (c.complain .valueExpected)

/-- Reads the items of an array that are left. -/
def items (fuel limit : Nat) (first : Bool) (c : Cursor) : Outcome Items :=
  match fuel with
  | 0 => (.broken (c.complain .endInArray), .error (c.complain .endInArray))
  | fuel + 1 =>
    let stopped (fault : Fault) : Outcome Items := (.broken fault, .error fault)
    let read (c : Cursor) : Outcome Items :=
      match value (fun _ => false) fuel limit c with
      | (head, .error fault) => (.item head (.broken fault), .error fault)
      | (head, .ok after) =>
        let (tail, after) := items fuel limit false after
        (.item head tail, after)
    let c := c.skipBlanks
    match first, c.rest with
    | _, [] => stopped (c.complain .endInArray)
    | _, ']' :: rest =>
      let after : Cursor := ⟨rest, c.place.after ']'⟩
      (.close (some after.place), .ok after)
    | true, _ => read c
    | false, ',' :: rest =>
      let c := (⟨rest, c.place.after ','⟩ : Cursor).skipBlanks
      match c.rest with
      | [] => stopped (c.complain .endInValue)
      | ']' :: _ => stopped (c.complain .trailingComma)
      | _ => read c
    | false, _ => stopped (c.complain .commaOrBracketExpected)

/-- Reads the entries of an object that are left. -/
def entries (unwanted : String → Bool) (fuel limit : Nat) (first : Bool) (c : Cursor) :
    Outcome Entries :=
  match fuel with
  | 0 => (.broken (c.complain .endInObject), .error (c.complain .endInObject))
  | fuel + 1 =>
    let stopped (fault : Fault) : Outcome Entries := (.broken fault, .error fault)
    let read (c : Cursor) : Outcome Entries :=
      match string c with
      | .error fault => stopped fault
      | .ok (name, c) =>
        let stop := some c.place
        let c := c.skipBlanks
        match c.rest with
        | ':' :: rest =>
          let key : Key := ⟨name, stop, some c.place⟩
          let behind : Cursor := ⟨rest, c.place.after ':'⟩
          let (v, after) :=
            if unwanted name then
              scalar .stray behind.place ((skim fuel behind).map ((.null, ·)))
            else value (fun _ => false) fuel limit behind
          match after with
          | .error fault => (.entry key v none (.broken fault), .error fault)
          | .ok after =>
            let after := after.skipBlanks
            let (tail, rest) := entries unwanted fuel limit false after
            (.entry key v (some after.place) tail, rest)
        | [] =>
          let fault := c.complain .endInObject
          (.keyOnly ⟨name, stop, some c.place⟩ fault, .error fault)
        | d :: _ =>
          let fault := c.complain .colonExpected
          let mark := if d = '\x7d' then c.place.after d else c.place
          (.keyOnly ⟨name, stop, some mark⟩ fault, .error fault)
    let c := c.skipBlanks
    match first, c.rest with
    | _, [] => stopped (c.complain .endInObject)
    | _, '\x7d' :: rest =>
      let after : Cursor := ⟨rest, c.place.after '\x7d'⟩
      (.close (some after.place), .ok after)
    | true, '"' :: rest => read ⟨rest, c.place.after '"'⟩
    | true, _ => stopped (c.complain .keyNotString)
    | false, ',' :: rest =>
      let c := (⟨rest, c.place.after ','⟩ : Cursor).skipBlanks
      match c.rest with
      | '"' :: rest => read ⟨rest, c.place.after '"'⟩
      | '\x7d' :: _ => stopped (c.complain .trailingComma)
      | [] => stopped (c.complain .endInValue)
      | _ => stopped (c.complain .keyNotString)
    | false, _ => stopped (c.complain .commaOrBraceExpected)

end

end Reader

/-! ## Whole texts -/

/-- The number of brackets a text may open within each other. -/
def nestingLimit : Nat := 127

/-- Reads the value a text starts with, with `limit` nested brackets; the members of the outermost
object whose keys are `unwanted` are only skimmed. -/
def Reader.run (unwanted : String → Bool) (limit : Nat) (text : String) : Reader.Outcome Reading :=
  let c := Cursor.ofString text
  Reader.value unwanted (2 * c.rest.length + 2) limit c

/-- Reads the value a text starts with. -/
def Reading.ofText (text : String) : Reader.Outcome Reading :=
  Reader.run (fun _ => false) nestingLimit text

/-- The fault of a text that goes on behind its value. -/
def Cursor.checkEnd (c : Cursor) : Except Fault Unit :=
  let c := c.skipBlanks
  if c.rest.isEmpty then .ok () else .error (c.complain .trailingCharacters)

end SchemaTree.Json
