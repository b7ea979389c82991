import SchemaTree.Json.Value

/-!
# JSON text of a value

`Value.compact` writes no blanks; `Value.pretty` writes each item and member on a
line of its own, indented by two blanks, and empty brackets closed up.  Strings
escape the quote, the backslash and the characters below `U+0020`, and nothing
else.
-/

namespace SchemaTree.Json

/-! ## Strings -/

/-- The hexadecimal digit of a number below 16, in lower case. -/
def hexDigit (n : Nat) : Char := if n < 10 then Char.ofNat (48 + n) else Char.ofNat (87 + n)

/-- The text a character has between quotes. -/
def escape (c : Char) : List Char :=
  match c with
  | '"' => ['\\', '"']
  | '\\' => ['\\', '\\']
  | '\x08' => ['\\', 'b']
  | '\x0c' => ['\\', 'f']
  | '\n' => ['\\', 'n']
  | '\r' => ['\\', 'r']
  | '\t' => ['\\', 't']
  | c =>
    if c.toNat < 0x20 then ['\\', 'u', '0', '0', hexDigit (c.toNat / 16), hexDigit (c.toNat % 16)]
    else [c]

/-- A string between quotes. -/
def quoteString (s : String) : String :=
  "\"" ++ String.ofList (s.toList.flatMap escape) ++ "\""

namespace Value

/-! ## Compact text -/

mutual

/-- The text of a value without blanks. -/
def compact : Value → String
  | null => "null"
  | bool b => if b then "true" else "false"
  | number n => n.render
  | string s => quoteString s
  | array items => "[" ++ ",".intercalate (compactItems items) ++ "]"
  | object members => "\x7b" ++ ",".intercalate (compactMembers members) ++ "\x7d"

def compactItems : List Value → List String
  | [] => []
  | v :: vs => compact v :: compactItems vs

def compactMembers : Members → List String
  | [] => []
  | (k, v) :: ms => (quoteString k ++ ":" ++ compact v) :: compactMembers ms

end

/-! ## Indented text -/

/-- Brackets around lines that are indented by `depth + 1` steps. -/
def block (opening closing : String) (depth : Nat) (lines : List String) : String :=
  let indent (n : Nat) := String.ofList (List.replicate (2 * n) ' ')
  if lines.isEmpty then opening ++ closing
  else
    opening ++ "\n" ++ ",\n".intercalate (lines.map (indent (depth + 1) ++ ·)) ++ "\n" ++
      indent depth ++ closing

mutual

/-- The indented text of a value that stands at a depth. -/
def prettyAt (depth : Nat) : Value → String
  | null => "null"
  | bool b => if b then "true" else "false"
  | number n => n.render
  | string s => quoteString s
  | array items => block "[" "]" depth (prettyItems (depth + 1) items)
  | object members => block "\x7b" "\x7d" depth (prettyMembers (depth + 1) members)

def prettyItems (depth : Nat) : List Value → List String
  | [] => []
  | v :: vs => prettyAt depth v :: prettyItems depth vs

def prettyMembers (depth : Nat) : Members → List String
  | [] => []
  | (k, v) :: ms => (quoteString k ++ ": " ++ prettyAt depth v) :: prettyMembers depth ms

end

/-- The indented text of a value. -/
def pretty (v : Value) : String := prettyAt 0 v

end Value

end SchemaTree.Json
