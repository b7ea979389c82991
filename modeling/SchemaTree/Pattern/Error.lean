/-!
# Rejected patterns

A rejected pattern is reported with its text and carets under the part that is
to blame; an error about a repetition of something also marks the first
occurrence.  A pattern of several lines is set between rules, with its lines
numbered.
-/

namespace SchemaTree.Pattern

/-- A place in a pattern: line and column, both from 1, the column in characters. -/
structure Spot where
  line : Nat
  column : Nat
  deriving DecidableEq, Repr, Inhabited

/-- A part of a pattern, from a spot up to another. -/
structure Span where
  start : Spot
  stop : Spot
  deriving DecidableEq, Repr, Inhabited

/-- Why a pattern is rejected. -/
inductive Cause where
  | classEscapeInvalid
  | classRangeInvalid
  | classRangeLiteral
  | classUnclosed
  | decimalEmpty
  | decimalInvalid
  | escapeHexEmpty
  | escapeHexInvalid
  | escapeHexInvalidDigit
  | escapeUnexpectedEnd
  | escapeUnrecognized
  | flagDanglingNegation
  | flagDuplicate
  | flagRepeatedNegation
  | flagUnexpectedEnd
  | flagUnrecognized
  | groupNameDuplicate
  | groupNameEmpty
  | groupNameInvalid
  | groupNameUnexpectedEnd
  | groupUnclosed
  | groupUnopened
  | nestLimitExceeded
  | repetitionCountInvalid
  | repetitionCountDecimalEmpty
  | repetitionCountUnclosed
  | repetitionMissing
  | wordBoundaryUnclosed
  | wordBoundaryUnrecognized
  | wordBoundaryUnexpectedEnd
  | unicodeClassInvalid
  | backreferenceUnsupported
  | lookAroundUnsupported
  | unicodeNotAllowed
  | invalidUtf8
  | propertyNotFound
  | propertyValueNotFound
  deriving DecidableEq, Repr

/-- The number of brackets that may stand within each other. -/
def nestLimit : Nat := 250

/-- The wording of a cause. -/
def Cause.message : Cause → String
  | classEscapeInvalid => "invalid escape sequence found in character class"
  | classRangeInvalid => "invalid character class range, the start must be <= the end"
  | classRangeLiteral => "invalid range boundary, must be a literal"
  | classUnclosed => "unclosed character class"
  | decimalEmpty => "decimal literal empty"
  | decimalInvalid => "decimal literal invalid"
  | escapeHexEmpty => "hexadecimal literal empty"
  | escapeHexInvalid => "hexadecimal literal is not a Unicode scalar value"
  | escapeHexInvalidDigit => "invalid hexadecimal digit"
  | escapeUnexpectedEnd => "incomplete escape sequence, reached end of pattern prematurely"
  | escapeUnrecognized => "unrecognized escape sequence"
  | flagDanglingNegation => "dangling flag negation operator"
  | flagDuplicate => "duplicate flag"
  | flagRepeatedNegation => "flag negation operator repeated"
  | flagUnexpectedEnd => "expected flag but got end of regex"
  | flagUnrecognized => "unrecognized flag"
  | groupNameDuplicate => "duplicate capture group name"
  | groupNameEmpty => "empty capture group name"
  | groupNameInvalid => "invalid capture group character"
  | groupNameUnexpectedEnd => "unclosed capture group name"
  | groupUnclosed => "unclosed group"
  | groupUnopened => "unopened group"
  | nestLimitExceeded =>
    "exceed the maximum number of nested parentheses/brackets (" ++ toString nestLimit ++ ")"
  | repetitionCountInvalid => "invalid repetition count range, the start must be <= the end"
  | repetitionCountDecimalEmpty => "repetition quantifier expects a valid decimal"
  | repetitionCountUnclosed => "unclosed counted repetition"
  | repetitionMissing => "repetition operator missing expression"
  | wordBoundaryUnclosed =>
    "special word boundary assertion is either unclosed or contains an invalid character"
  | wordBoundaryUnrecognized =>
    "unrecognized special word boundary assertion, valid choices are: start, end, start-half " ++
      "or end-half"
  | wordBoundaryUnexpectedEnd =>
    "found either the beginning of a special word boundary or a bounded repetition on a \\b " ++
      "with an opening brace, but no closing brace"
  | unicodeClassInvalid => "invalid Unicode character class"
  | backreferenceUnsupported => "backreferences are not supported"
  | lookAroundUnsupported =>
    "look-around, including look-ahead and look-behind, is not supported"
  | unicodeNotAllowed => "Unicode not allowed here"
  | invalidUtf8 => "pattern can match invalid UTF-8"
  | propertyNotFound => "Unicode property not found"
  | propertyValueNotFound => "Unicode property value not found"

/-- A rejected pattern: the cause, the part to blame, and the first occurrence of what may occur
only once. -/
structure Error where
  cause : Cause
  span : Span
  first : Option Span := none
  deriving DecidableEq, Repr

/-! ## Reports -/

/-- The lines of a text; a line break at the end begins no line. -/
def textLines (cs : List Char) : List (List Char) :=
  let step (c : Char) (lines : List (List Char)) : List (List Char) :=
    if c = '\n' then [] :: lines
    else
      match lines with
      | [] => [[c]]
      | l :: ls => (c :: l) :: ls
  let lines := cs.foldr step []
  let ended := cs.getLast? = some '\n'
  lines.mapIdx fun i l =>
    if (i + 1 < lines.length || ended) && l.getLast? = some '\r' then l.dropLast else l

def Spot.before (a b : Spot) : Bool :=
  a.line < b.line || (a.line == b.line && a.column < b.column)

def Span.before (a b : Span) : Bool :=
  a.start.before b.start || (a.start == b.start && a.stop.before b.stop)

/-- The parts that a report marks, in order. -/
def Error.marks (e : Error) : List Span :=
  match e.first with
  | none => [e.span]
  | some f => if e.span.before f then [e.span, f] else [f, e.span]

/-- Carets under the parts of a line, from a column on. -/
def carets (column : Nat) : List Span → List Char
  | [] => []
  | s :: rest =>
    let width := max 1 (s.stop.column - s.start.column)
    let start := s.start.column - 1
    List.replicate (start - column) ' ' ++ List.replicate width '^' ++
      carets (max column start + width) rest

/-- The text of a number, with blanks before it up to a width. -/
def padded (width n : Nat) : String :=
  let s := toString n
  String.ofList (List.replicate (width - s.length) ' ') ++ s

/-- The lines of a pattern with carets under the marked parts. -/
def annotated (pattern : List Char) (marks : List Span) : String :=
  let lines := textLines pattern
  let count := lines.length + (if pattern.getLast? = some '\n' then 1 else 0)
  let width := if count ≤ 1 then 0 else (toString count).length
  let indent := if width = 0 then 4 else width + 2
  String.join (lines.mapIdx fun i l =>
    let head := if width = 0 then "    " else padded width (i + 1) ++ ": "
    let here := marks.filter fun s => s.start.line = i + 1 && s.stop.line = i + 1
    let notes :=
      if here.isEmpty then ""
      else String.ofList (List.replicate indent ' ' ++ carets 0 here) ++ "\n"
    head ++ String.ofList l ++ "\n" ++ notes)

/-- A part of several lines in words. -/
def Span.note (s : Span) : String :=
  "on line " ++ toString s.start.line ++ " (column " ++ toString s.start.column ++
    ") through line " ++ toString s.stop.line ++ " (column " ++ toString (s.stop.column - 1) ++ ")"

/-- The report about a rejected pattern. -/
def Error.report (pattern : String) (e : Error) : String :=
  let cs := pattern.toList
  let body := annotated cs e.marks
  let last := "error: " ++ e.cause.message
  if cs.contains '\n' then
    let rule := String.ofList (List.replicate 79 '~') ++ "\n"
    let long := e.marks.filter fun s => s.start.line ≠ s.stop.line
    let notes := if long.isEmpty then "" else "\n".intercalate (long.map Span.note) ++ "\n"
    "regex parse error:\n" ++ rule ++ body ++ rule ++ notes ++ last
  else "regex parse error:\n" ++ body ++ last

end SchemaTree.Pattern
