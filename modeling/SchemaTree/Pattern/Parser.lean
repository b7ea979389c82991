import SchemaTree.Pattern.Tree
import SchemaTree.Text.Letters

/-!
# Reading patterns

A pattern is read by recursive descent into a `Node`.  The reader keeps the rest
of the text, the spot where it starts, whether blanks are passed over, and the
names of groups.  All loops are bounded by the length of the text that is left;
every step passes over a character at least.

* A group begins with a parenthesis; behind a question mark come a name, flags,
  or an attempt to look around, which is refused.
* Flags hold up to the end of their group.
* A class stands between brackets; its first characters may be `^`, minuses and
  `]`, and classes may stand within classes.
-/

namespace SchemaTree.Pattern

/-- What a reader of patterns knows. -/
structure Input where
  rest : List Char
  spot : Spot := ⟨1, 1⟩
  verbose : Bool := false
  names : List (String × Span) := []

/-- Reading steps. -/
abbrev Parse := StateT Input (Except Error)

namespace Parse

/-! ## Characters -/

/-- The spot behind a character. -/
def after (s : Spot) (c : Char) : Spot :=
  if c = '\n' then ⟨s.line + 1, 1⟩ else ⟨s.line, s.column + 1⟩

/-- Rejects the pattern. -/
def reject {α : Type} (cause : Cause) (span : Span) : Parse α := throw ⟨cause, span, none⟩

/-- Rejects the pattern because something is there a second time. -/
def rejectSecond {α : Type} (cause : Cause) (span first : Span) : Parse α :=
  throw ⟨cause, span, some first⟩

/-- The next character. -/
def peek? : Parse (Option Char) := return (← get).rest.head?

/-- The character behind the next one. -/
def second? : Parse (Option Char) := return (← get).rest.tail.head?

def spot : Parse Spot := return (← get).spot

/-- Whether the text is at its end. -/
def atEnd : Parse Bool := return (← get).rest.isEmpty

/-- The empty span here. -/
def here : Parse Span := do
  let s ← spot
  return ⟨s, s⟩

/-- The span from a spot up to here. -/
def since (start : Spot) : Parse Span := return ⟨start, ← spot⟩

/-- The span of the next character. -/
def nextSpan : Parse Span := do
  let i ← get
  match i.rest with
  | [] => return ⟨i.spot, i.spot⟩
  | c :: _ => return ⟨i.spot, after i.spot c⟩

/-- Passes over the next character; whether there is more text then. -/
def bump : Parse Bool := do
  let i ← get
  match i.rest with
  | [] => return false
  | c :: rest =>
    set { i with rest, spot := after i.spot c }
    return !rest.isEmpty

/-- Passes over blanks and comments; `comment` tells whether the text starts within one. -/
def skipBlanks (comment : Bool) (s : Spot) : List Char → Spot × List Char
  | [] => (s, [])
  | c :: rest =>
    if comment then skipBlanks (c ≠ '\n') (after s c) rest
    else if Text.isBlank c then skipBlanks false (after s c) rest
    else if c = '#' then skipBlanks true (after s c) rest
    else (s, c :: rest)

/-- Passes over blanks and comments where they mean nothing. -/
def bumpSpace : Parse Unit :=
  modify fun i =>
    if i.verbose then
      let (spot, rest) := skipBlanks false i.spot i.rest
      { i with spot, rest }
    else i

/-- Passes over the next character and blanks; whether there is more text then. -/
def bumpAndSpace : Parse Bool := do
  if !(← bump) then return false
  bumpSpace
  return !(← atEnd)

/-- Passes over a text if it comes next. -/
def bumpIf (text : String) : Parse Bool := do
  let i ← get
  let cs := text.toList
  if cs.isPrefixOf i.rest then
    set { i with rest := i.rest.drop cs.length, spot := cs.foldl after i.spot }
    return true
  else return false

/-- Passes over the first of some texts that comes next. -/
def bumpIfAny : List String → Parse Bool
  | [] => return false
  | text :: texts => do
    if ← bumpIf text then return true
    bumpIfAny texts

/-- The next character behind the one that comes next, past blanks where they mean nothing. -/
def secondPastSpace? : Parse (Option Char) := do
  let i ← get
  let behind := i.rest.tail
  if !i.verbose then return behind.head?
  let found := match behind.dropWhile Text.isBlank with
    | '#' :: more => more.dropWhile Text.isBlank
    | more => more
  return (found.head? <|> behind.head?)

/-! ## Numbers -/

/-- Collects characters of a kind, passing over blanks. -/
def collect (wanted : Char → Bool) : Nat → Parse (List Char)
  | 0 => return []
  | fuel + 1 => do
    match ← peek? with
    | some c =>
      if wanted c then
        let _ ← bumpAndSpace
        return c :: (← collect wanted fuel)
      else return []
    | none => return []

/-- A bound for loops from here on. -/
def fuel : Parse Nat := return (← get).rest.length + 1

/-- The value of decimal digits. -/
def decimalValue (ds : List Char) : Nat := ds.foldl (fun n d => n * 10 + (d.toNat - 48)) 0

/-- The number that counts stay below. -/
def countLimit : Nat := 4294967296

/-- A decimal number, or why there is none. -/
def decimal : Parse (Except Error Nat) := do
  let _ ← collect Text.isBlank (← fuel)
  let start ← spot
  let ds ← collect Char.isDigit (← fuel)
  let span ← since start
  let _ ← collect Text.isBlank (← fuel)
  if ds.isEmpty then return .error ⟨.repetitionCountDecimalEmpty, span, none⟩
  else if decimalValue ds < countLimit then return .ok (decimalValue ds)
  else return .error ⟨.decimalInvalid, span, none⟩

/-- The value of a hexadecimal digit. -/
def hexValue? (c : Char) : Option Nat :=
  if c.isDigit then some (c.toNat - 48)
  else if 'a' ≤ c && c ≤ 'f' then some (c.toNat - 87)
  else if 'A' ≤ c && c ≤ 'F' then some (c.toNat - 55)
  else none

/-- The character with a number in hexadecimal digits. -/
def hexChar? (ds : List Char) : Option Char :=
  let n := ds.foldl (fun n d => n * 16 + (hexValue? d).getD 0) 0
  if h : n.isValidChar then some (Char.ofNatAux n h) else none

/-- The hexadecimal digits up to a closing brace. -/
def hexInBraces : Nat → Parse (List Char)
  | 0 => return []
  | fuel + 1 => do
    if !(← bumpAndSpace) then return []
    match ← peek? with
    | some '\x7d' => return []
    | some c =>
      if (hexValue? c).isNone then reject .escapeHexInvalidDigit (← nextSpan)
      return c :: (← hexInBraces fuel)
    | none => return []

/-- A fixed number of hexadecimal digits. -/
def hexFixed (first : Bool) : Nat → Parse (List Char)
  | 0 => return []
  | n + 1 => do
    unless first do
      if !(← bumpAndSpace) then reject .escapeUnexpectedEnd (← here)
    match ← peek? with
    | some c =>
      if (hexValue? c).isNone then reject .escapeHexInvalidDigit (← nextSpan)
      return c :: (← hexFixed false n)
    | none => reject .escapeUnexpectedEnd (← here)

/-- A character written by its number, behind the backslash that stands at `start`; `kind` is the
letter behind it. -/
def hexLiteral (start : Spot) (kind : Char) : Parse Literal := do
  if !(← bumpAndSpace) then reject .escapeUnexpectedEnd (← here)
  if (← peek?) = some '\x7b' then
    let brace ← spot
    let digitsStart := (← nextSpan).stop
    let ds ← hexInBraces (← fuel)
    if ← atEnd then reject .escapeUnexpectedEnd (← since brace)
    let digitsStop ← spot
    let _ ← bumpAndSpace
    if ds.isEmpty then reject .escapeHexEmpty (← since brace)
    match hexChar? ds with
    | some c => return ⟨← since start, c, false⟩
    | none => reject .escapeHexInvalid ⟨digitsStart, digitsStop⟩
  else
    let digitsStart ← spot
    let ds ← hexFixed true (if kind = 'x' then 2 else if kind = 'u' then 4 else 8)
    let _ ← bumpAndSpace
    match hexChar? ds with
    | some c => return ⟨← since start, c, kind = 'x'⟩
    | none => reject .escapeHexInvalid (← since digitsStart)

/-! ## Escapes -/

/-- What an escape or a single character stands for. -/
inductive Primitive where
  | literal (l : Literal)
  | assertion (span : Span)
  | dot (span : Span)
  | property (span : Span) (negated : Bool) (query : Query)
  | shorthand (span : Span) (negated : Bool) (kind : Shorthand)

def Primitive.span : Primitive → Span
  | literal l => l.span
  | assertion s => s
  | dot s => s
  | property s _ _ => s
  | shorthand s _ _ => s

def Primitive.toNode : Primitive → Node
  | literal l => .literal l
  | assertion s => .assertion s
  | dot s => .dot s
  | property s n q => .property s n q
  | shorthand s n k => .shorthand s n k

/-- The characters of a name up to a closing brace. -/
def nameInBraces : Nat → Parse (List Char)
  | 0 => return []
  | fuel + 1 => do
    if !(← bumpAndSpace) then return []
    match ← peek? with
    | some '\x7d' => return []
    | some c => return c :: (← nameInBraces fuel)
    | none => return []

/-- Splits a text at the first occurrence of a mark. -/
def splitAt? (mark : List Char) : List Char → Option (List Char × List Char)
  | [] => none
  | c :: rest =>
    if mark.isPrefixOf (c :: rest) then some ([], (c :: rest).drop mark.length)
    else (splitAt? mark rest).map fun (a, b) => (c :: a, b)

/-- What a name between braces asks for. -/
def queryOf (name : List Char) : Query :=
  let parts := splitAt? ['!', '='] name <|> splitAt? [':'] name <|> splitAt? ['='] name
  match parts with
  | some (p, v) => .value (String.ofList p) (String.ofList v)
  | none => .name (String.ofList name)

/-- A class named by a property, behind the backslash at `start`. -/
def propertyClass (start : Spot) (negated : Bool) : Parse Primitive := do
  if !(← bumpAndSpace) then reject .escapeUnexpectedEnd (← here)
  match ← peek? with
  | some '\x7b' =>
    let name ← nameInBraces (← fuel)
    if ← atEnd then reject .escapeUnexpectedEnd (← here)
    let _ ← bump
    return .property (← since start) negated (queryOf name)
  | some '\\' => reject .unicodeClassInvalid (← nextSpan)
  | some c =>
    let _ ← bumpAndSpace
    return .property (← since start) negated (.name c.toString)
  | none => reject .escapeUnexpectedEnd (← here)

/-- Whether a character can stand in the name of a boundary. -/
def isBoundaryChar (c : Char) : Bool := c.isAlpha || c = '-'

/-- The boundary of a word named between braces, if what follows is one; the backslash stands at
`start`. -/
def namedBoundary (start : Spot) : Parse Unit := do
  let saved ← get
  let brace ← spot
  if !(← bumpAndSpace) then reject .wordBoundaryUnexpectedEnd (← since start)
  let contents ← spot
  match ← peek? with
  | none => reject .wordBoundaryUnexpectedEnd (← since start)
  | some c =>
    if !isBoundaryChar c then set saved
    else
      let name := String.ofList (← collect isBoundaryChar (← fuel))
      if (← peek?) ≠ some '\x7d' then reject .wordBoundaryUnclosed (← since brace)
      let stop ← spot
      let _ ← bump
      if !(["start", "end", "start-half", "end-half"].contains name) then
        reject .wordBoundaryUnrecognized ⟨contents, stop⟩

/-- Whether a character may stand behind a backslash for itself. -/
def isEscapable (c : Char) : Bool :=
  c.toNat < 0x80 && !c.isAlphanum && c ≠ '<' && c ≠ '>'

/-- The control character that a letter behind a backslash stands for. -/
def controlChar? : Char → Option Char
  | 'a' => some '\x07'
  | 'f' => some '\x0c'
  | 't' => some '\t'
  | 'n' => some '\n'
  | 'r' => some '\r'
  | 'v' => some '\x0b'
  | _ => none

/-- An escape. -/
def escape : Parse Primitive := do
  let start ← spot
  if !(← bump) then reject .escapeUnexpectedEnd (← since start)
  match ← peek? with
  | none => reject .escapeUnexpectedEnd (← since start)
  | some c =>
    if c.isDigit then reject .backreferenceUnsupported ⟨start, (← nextSpan).stop⟩
    if c = 'x' || c = 'u' || c = 'U' then return .literal (← hexLiteral start c)
    if c = 'p' || c = 'P' then return ← propertyClass start (c = 'P')
    let _ ← bump
    let span ← since start
    if isEscapable c then return .literal ⟨span, c, false⟩
    match controlChar? c with
    | some d => return .literal ⟨span, d, false⟩
    | none =>
      match c with
      | 'd' => return .shorthand span false .digit
      | 'D' => return .shorthand span true .digit
      | 's' => return .shorthand span false .blank
      | 'S' => return .shorthand span true .blank
      | 'w' => return .shorthand span false .word
      | 'W' => return .shorthand span true .word
      | 'b' =>
        if (← peek?) = some '\x7b' then namedBoundary start
        return .assertion (← since start)
      | c =>
        if ['A', 'z', 'B', '<', '>'].contains c then return .assertion span
        else reject .escapeUnrecognized span

/-- An escape or a single character outside of classes. -/
def primitive : Parse Primitive := do
  let span ← nextSpan
  match ← peek? with
  | some '\\' => escape
  | some c =>
    let _ ← bump
    match c with
    | '.' => return .dot span
    | '^' => return .assertion span
    | '$' => return .assertion span
    | c => return .literal ⟨span, c, false⟩
  | none => reject .escapeUnexpectedEnd span

/-! ## Classes -/

/-- The names of the classes of ASCII characters. -/
def asciiClasses : List String :=
  ["alnum", "alpha", "ascii", "blank", "cntrl", "digit", "graph", "lower", "print", "punct",
    "space", "upper", "word", "xdigit"]

/-- A class of ASCII characters by name, if one comes next. -/
def asciiClass? : Parse (Option ClassItem) := do
  let i ← get
  match i.rest with
  | '[' :: ':' :: rest =>
    let negated := rest.head? = some '^'
    let body := if negated then rest.tail else rest
    let name := body.takeWhile (· ≠ ':')
    if [':', ']'].isPrefixOf (body.drop name.length) && asciiClasses.contains (String.ofList name)
    then
      let start := i.spot
      let length := 2 + (if negated then 1 else 0) + name.length + 2
      set { i with rest := i.rest.drop length, spot := (i.rest.take length).foldl after i.spot }
      return some (.ascii (← since start) negated)
    else return none
  | _ => return none

/-- The part of a class that a primitive is. -/
def Primitive.toItem : Primitive → Parse ClassItem
  | literal l => return .literal l
  | property s n q => return .property s n q
  | shorthand s n k => return .shorthand s n k
  | p => reject .classEscapeInvalid p.span

/-- The literal that a boundary of a range has to be. -/
def Primitive.toBoundary : Primitive → Parse Literal
  | literal l => return l
  | p => reject .classRangeLiteral p.span

/-- An escape or a single character in a class. -/
def classPrimitive : Parse Primitive := do
  match ← peek? with
  | some '\\' => escape
  | c =>
    let span ← nextSpan
    let _ ← bump
    return .literal ⟨span, c.getD default, false⟩

/-- A part of a class that begins with no bracket: a primitive or a range. The class opens at
`opening`. -/
def rangeItem (opening : Span) : Parse ClassItem := do
  let first ← classPrimitive
  bumpSpace
  if ← atEnd then reject .classUnclosed opening
  let next ← secondPastSpace?
  if (← peek?) ≠ some '-' || next = some ']' || next = some '-' then first.toItem
  else
    if !(← bumpAndSpace) then reject .classUnclosed opening
    let last ← classPrimitive
    let span : Span := ⟨first.span.start, last.span.stop⟩
    let a ← first.toBoundary
    let b ← last.toBoundary
    if a.char ≤ b.char then return .range span a b else reject .classRangeInvalid span

/-- The minuses at the beginning of a class that opens at `start`. -/
def leadingMinuses (start : Spot) : Nat → Parse (List ClassItem)
  | 0 => return []
  | fuel + 1 => do
    if (← peek?) = some '-' then
      let item := ClassItem.literal ⟨← nextSpan, '-', false⟩
      if !(← bumpAndSpace) then reject .classUnclosed ⟨start, start⟩
      return item :: (← leadingMinuses start fuel)
    else return []

/-- The beginning of a class: its span, whether it is negated, and its first parts. -/
def classOpening : Parse (Span × Bool × List ClassItem) := do
  let start ← spot
  if !(← bumpAndSpace) then reject .classUnclosed (← since start)
  let negated := (← peek?) = some '^'
  if negated then
    if !(← bumpAndSpace) then reject .classUnclosed (← since start)
  let minuses ← leadingMinuses start (← fuel)
  if minuses.isEmpty && (← peek?) = some ']' then
    let item := ClassItem.literal ⟨← nextSpan, ']', false⟩
    if !(← bumpAndSpace) then reject .classUnclosed (← since start)
    return (← since start, negated, [item])
  return (← since start, negated, minuses)

/-- Joins what stands left of an operator with what stands right of it. -/
def joinSets (left : Option ClassSet) (right : ClassSet) : ClassSet :=
  match left with
  | none => right
  | some l => .op ⟨l.span.start, right.span.stop⟩ l right

mutual

/-- A class; `nested` tells whether it stands within another. -/
def bracketed (fuel : Nat) : Parse (Span × Bool × ClassSet) := do
  match fuel with
  | 0 => reject .classUnclosed (← here)
  | fuel + 1 =>
    let (opening, negated, items) ← classOpening
    let set ← classBody fuel opening none items
    return (⟨opening.start, ← spot⟩, negated, set)

/-- The rest of a class behind `items`, which stand right of the operator behind `left`. -/
def classBody (fuel : Nat) (opening : Span) (left : Option ClassSet) (items : List ClassItem) :
    Parse ClassSet := do
  match fuel with
  | 0 => reject .classUnclosed opening
  | fuel + 1 =>
    bumpSpace
    let next ← second?
    let side : Parse ClassSet :=
      return joinSets left (.item (ClassItem.ofItems (← here) items))
    match ← peek? with
    | none => reject .classUnclosed opening
    | some '[' =>
      match ← asciiClass? with
      | some item => classBody fuel opening left (items ++ [item])
      | none =>
        let (span, negated, set) ← bracketed fuel
        classBody fuel opening left (items ++ [.bracketed span negated set])
    | some ']' =>
      let set ← side
      let _ ← bump
      return set
    | some c =>
      if (c = '&' || c = '-' || c = '~') && next = some c then
        let set ← side
        let _ ← bump
        let _ ← bump
        classBody fuel opening (some set) []
      else
        let item ← rangeItem opening
        classBody fuel opening left (items ++ [item])

end

/-! ## Groups -/

/-- Whether a character can stand in the name of a group. -/
def isNameChar (first : Bool) (c : Char) : Bool :=
  if first then c = '_' || Text.isLetter c
  else c = '_' || c = '.' || c = '[' || c = ']' || Text.isLetterOrNumber c

/-- The characters of the name of a group. -/
def nameChars (first : Bool) : Nat → Parse (List Char)
  | 0 => return []
  | fuel + 1 => do
    match ← peek? with
    | none => return []
    | some '>' => return []
    | some c =>
      if !isNameChar first c then reject .groupNameInvalid (← nextSpan)
      let _ ← bump
      return c :: (← nameChars false fuel)

/-- The name of a group. -/
def groupName : Parse Unit := do
  if ← atEnd then reject .groupNameUnexpectedEnd (← here)
  let start ← spot
  let name := String.ofList (← nameChars true (← fuel))
  let span ← since start
  if ← atEnd then reject .groupNameUnexpectedEnd (← here)
  let _ ← bump
  if name.isEmpty then reject .groupNameEmpty ⟨start, start⟩
  match (← get).names.lookup name with
  | some first => rejectSecond .groupNameDuplicate span first
  | none => modify fun i => { i with names := (name, span) :: i.names }

/-- The flag of a letter. -/
def flag? : Char → Option Flag
  | 'i' => some .caseInsensitive
  | 'm' => some .multiLine
  | 's' => some .dotAll
  | 'U' => some .swapGreed
  | 'u' => some .unicode
  | 'R' => some .crlf
  | 'x' => some .verbose
  | _ => none

/-- Flags up to a colon or a parenthesis, behind those that were `seen`. -/
def flags (seen : Flags) : Nat → Parse Flags
  | 0 => return seen
  | fuel + 1 => do
    let span ← nextSpan
    match ← peek? with
    | none => reject .flagUnexpectedEnd span
    | some c =>
      if c = ':' || c = ')' then
        match seen.getLast? with
        | some (none, minus) => reject .flagDanglingNegation minus
        | _ => return seen
      else
        let item ←
          if c = '-' then pure none
          else
            match flag? c with
            | some f => pure (some f)
            | none => reject .flagUnrecognized span
        match seen.lookup item with
        | some first =>
          rejectSecond (if item.isNone then .flagRepeatedNegation else .flagDuplicate) span first
        | none =>
          if !(← bump) then reject .flagUnexpectedEnd (← here)
          flags (seen ++ [(item, span)]) fuel

/-- What a parenthesis begins: a setting of flags, or a group. -/
inductive Opening where
  | setting (span : Span) (flags : Flags)
  | group (span : Span) (captures : Bool) (flags : Flags)

/-- Reads what a parenthesis begins. -/
def groupOpening : Parse Opening := do
  let openSpan ← nextSpan
  let _ ← bump
  bumpSpace
  if ← bumpIfAny ["?=", "?!", "?<=", "?<!"] then
    reject .lookAroundUnsupported (← since openSpan.start)
  let inner ← here
  if ← bumpIfAny ["?P<", "?<"] then
    groupName
    return .group openSpan true []
  else if ← bumpIf "?" then
    if ← atEnd then reject .groupUnclosed openSpan
    let fs ← flags [] (← fuel)
    let closing ← peek?
    let _ ← bump
    if closing = some ')' then
      if fs.isEmpty then reject .repetitionMissing inner
      return .setting (← since openSpan.start) fs
    else return .group openSpan false fs
  else return .group openSpan true []

/-! ## Repetitions -/

/-- The last part of a sequence, which a repetition is about, and the parts before it. -/
def repeated (parts : List Node) : Parse (List Node × Node) := do
  match parts.getLast? with
  | none => reject .repetitionMissing (← here)
  | some (.empty _) => reject .repetitionMissing (← here)
  | some (.flags _ _) => reject .repetitionMissing (← here)
  | some n => return (parts.dropLast, n)

/-- A repetition of one of the three usual kinds. -/
def shortRepetition (parts : List Node) (min : Nat) (max : Option Nat) : Parse (List Node) := do
  let (before, body) ← repeated parts
  if (← bump) && (← peek?) = some '?' then
    let _ ← bump
  return before ++ [.repetition ⟨body.span.start, ← spot⟩ min max body]

/-- The count of a repetition between braces, up to the closing one; the braces open at `start`. -/
def count (start : Spot) : Parse (Nat × Option Nat) := do
  let unclosed {α : Type} : Parse α := do reject .repetitionCountUnclosed (← since start)
  if !(← bumpAndSpace) then unclosed
  let first ← decimal
  if ← atEnd then unclosed
  if (← peek?) = some ',' then
    if !(← bumpAndSpace) then unclosed
    if (← peek?) ≠ some '\x7d' then
      let n ← ofExcept first
      let m ← ofExcept (← decimal)
      return (n, some m)
    else
      let n ← ofExcept first
      return (n, none)
  else
    let n ← ofExcept first
    return (n, some n)
where
  ofExcept (n : Except Error Nat) : Parse Nat :=
    match n with
    | .ok n => return n
    | .error e => throw e

/-- A repetition whose count stands between braces. -/
def countedRepetition (parts : List Node) : Parse (List Node) := do
  let start ← spot
  let (before, body) ← repeated parts
  let (min, max) ← count start
  if (← peek?) ≠ some '\x7d' then reject .repetitionCountUnclosed (← since start)
  if (← bumpAndSpace) && (← peek?) = some '?' then
    let _ ← bump
  if (max.getD min) < min then reject .repetitionCountInvalid (← since start)
  return before ++ [.repetition ⟨body.span.start, ← spot⟩ min max body]

/-! ## Sequences and choices -/

/-- A choice of sequences up to the end of its group: `start` is where it begins, `branches` are
those before the present one, which begins at `branchStart` with `parts`. -/
def choice (fuel : Nat) (start branchStart : Spot) (branches parts : List Node) : Parse Node := do
  match fuel with
  | 0 => return .empty ⟨start, start⟩
  | fuel + 1 =>
    bumpSpace
    let finish : Parse Node := do
      let branch := Node.ofParts (← since branchStart) parts
      return .ofBranches (← since start) (branches ++ [branch])
    let more (parts : List Node) : Parse Node := choice fuel start branchStart branches parts
    match ← peek? with
    | none => finish
    | some ')' => finish
    | some '(' =>
      match ← groupOpening with
      | .setting span fs =>
        match Flags.state .verbose fs with
        | some v => modify fun i => { i with verbose := v }
        | none => pure ()
        more (parts ++ [.flags span fs])
      | .group span captures fs =>
        let outer := (← get).verbose
        modify fun i => { i with verbose := (Flags.state .verbose fs).getD outer }
        let inside ← spot
        let body ← choice fuel inside inside [] []
        if ← atEnd then reject .groupUnclosed span
        modify fun i => { i with verbose := outer }
        let _ ← bump
        more (parts ++ [.group (← since span.start) captures fs body])
    | some '|' =>
      let branch := Node.ofParts (← since branchStart) parts
      let _ ← bump
      choice fuel start (← spot) (branches ++ [branch]) []
    | some '[' =>
      let (span, negated, set) ← bracketed (2 * (← Parse.fuel))
      more (parts ++ [.bracketed span negated set])
    | some '?' => more (← shortRepetition parts 0 (some 1))
    | some '*' => more (← shortRepetition parts 0 none)
    | some '+' => more (← shortRepetition parts 1 none)
    | some '\x7b' => more (← countedRepetition parts)
    | some _ => more (parts ++ [(← primitive).toNode])

/-- A whole pattern. -/
def pattern : Parse Node := do
  let start ← spot
  let node ← choice (← Parse.fuel) start start [] []
  if !(← atEnd) then reject .groupUnopened (← nextSpan)
  return node

end Parse

/-- The tree of a pattern. -/
def parse (text : String) : Except Error Node :=
  match Parse.pattern.run { rest := text.toList } with
  | .error e => .error e
  | .ok (node, _) =>
    match node.checkNesting 0 with
    | .error e => .error e
    | .ok () => .ok node

end SchemaTree.Pattern
