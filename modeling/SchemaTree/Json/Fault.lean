/-!
# What can be wrong with a JSON text

A `Fault` is a complaint about the syntax of a text together with its place.
Places count lines from 1 and, within a line, the bytes of its UTF-8 form; a
complaint about the next character is placed one byte behind its start, so that
the character itself is counted in.
-/

namespace SchemaTree.Json

/-- A place in a text: the line, and the bytes since its start. -/
structure Place where
  line : Nat
  column : Nat
  deriving DecidableEq, Repr, Inhabited

/-- A complaint about the syntax of a JSON text. -/
inductive Complaint where
  | endInValue
  | endInArray
  | endInObject
  | endInString
  | valueExpected
  | wordExpected
  | colonExpected
  | commaOrBracketExpected
  | commaOrBraceExpected
  | trailingComma
  | trailingCharacters
  | keyNotString
  | invalidNumber
  | numberOutOfRange
  | invalidEscape
  | escapePairExpected
  | loneSurrogate
  | controlCharacter
  | nestedTooDeep
  deriving DecidableEq, Repr

/-- The wording of a complaint. -/
def Complaint.message : Complaint → String
  | endInValue => "EOF while parsing a value"
  | endInArray => "EOF while parsing a list"
  | endInObject => "EOF while parsing an object"
  | endInString => "EOF while parsing a string"
  | valueExpected => "expected value"
  | wordExpected => "expected ident"
  | colonExpected => "expected `:`"
  | commaOrBracketExpected => "expected `,` or `]`"
  | commaOrBraceExpected => "expected `,` or `\x7d`"
  | trailingComma => "trailing comma"
  | trailingCharacters => "trailing characters"
  | keyNotString => "key must be a string"
  | invalidNumber => "invalid number"
  | numberOutOfRange => "number out of range"
  | invalidEscape => "invalid escape"
  | escapePairExpected => "unexpected end of hex escape"
  | loneSurrogate => "lone leading surrogate in hex escape"
  | controlCharacter => "control character (\\u0000-\\u001F) found while parsing a string"
  | nestedTooDeep => "recursion limit exceeded"

/-- A complaint and where it arises. -/
structure Fault where
  complaint : Complaint
  place : Place
  deriving DecidableEq, Repr

/-- The wording of a place behind a complaint. -/
def Place.message (p : Place) : String :=
  " at line " ++ toString p.line ++ " column " ++ toString p.column

/-! ## Moving through a text -/

/-- The place behind a character. -/
def Place.after (p : Place) (c : Char) : Place :=
  if c = '\n' then ⟨p.line + 1, 0⟩ else ⟨p.line, p.column + c.utf8Size⟩

/-- What is left of a text, and the place where it starts. -/
structure Cursor where
  rest : List Char
  place : Place
  deriving Repr

namespace Cursor

/-- The start of a text. -/
def ofString (s : String) : Cursor := ⟨s.toList, ⟨1, 0⟩⟩

/-- The place one byte further, where a complaint about the next character belongs. -/
def ahead (c : Cursor) : Place :=
  match c.rest with
  | [] => c.place
  | '\n' :: _ => ⟨c.place.line + 1, 0⟩
  | _ :: _ => ⟨c.place.line, c.place.column + 1⟩

/-- A complaint about the next character. -/
def complain (c : Cursor) (complaint : Complaint) : Fault := ⟨complaint, c.ahead⟩

/-- Passes over a number of bytes. -/
def skipBytes (place : Place) : Nat → List Char → Place
  | _, [] => place
  | n, c :: rest =>
    if n = 0 then place
    else if c.utf8Size ≤ n then skipBytes (place.after c) (n - c.utf8Size) rest
    else ⟨place.line, place.column + n⟩

/-- The place behind the last character. -/
def finish (place : Place) : List Char → Place
  | [] => place
  | c :: rest => finish (place.after c) rest

/-- The number of bytes of a text. -/
def byteLength (cs : List Char) : Nat := cs.foldr (fun c n => c.utf8Size + n) 0

/-- Passes over blanks, line breaks and tabs. -/
def skipBlanksFrom (place : Place) : List Char → Cursor
  | [] => ⟨[], place⟩
  | c :: rest =>
    if c = ' ' || c = '\n' || c = '\t' || c = '\r' then skipBlanksFrom (place.after c) rest
    else ⟨c :: rest, place⟩

def skipBlanks (c : Cursor) : Cursor := skipBlanksFrom c.place c.rest

/-- Reads decimal digits, by their values. -/
def digitsFrom (place : Place) : List Char → List Nat × Cursor
  | [] => ([], ⟨[], place⟩)
  | c :: rest =>
    if c.isDigit then
      let (ds, after) := digitsFrom (place.after c) rest
      ((c.toNat - 48) :: ds, after)
    else ([], ⟨c :: rest, place⟩)

def digits (c : Cursor) : List Nat × Cursor := digitsFrom c.place c.rest

end Cursor

end SchemaTree.Json
