import SchemaTree.Pattern.Tree
import SchemaTree.Pattern.Property

/-!
# Programs of patterns

A pattern is turned into a program that runs over text.  It must match text
only, never half a character, and the names of properties in it must be known.
The room that its program takes is bounded.

* `Node.program`: the measure of a pattern's program, or what is wrong with the
  pattern.
* `Program.repeated`: what a repetition makes of the program of its body.
-/

namespace SchemaTree.Pattern

/-- The measure of a program: the bytes it takes, and whether it passes over no character. -/
structure Program where
  bytes : Nat
  zeroWidth : Bool
  deriving DecidableEq, Repr

/-- The bytes that a program may take. -/
def programLimit : Nat := 10485760

/-- The bytes of one state. -/
def stateSize : Nat := 32

namespace Program

/-- A program that does nothing. -/
def empty : Program := ⟨stateSize, true⟩

/-- A program that passes over characters. -/
def ofBytes (bytes : Nat) : Program := ⟨bytes, false⟩

/-- One program after the other. -/
def append (a b : Program) : Program := ⟨a.bytes + b.bytes, a.zeroWidth && b.zeroWidth⟩

/-- Programs one after the other. -/
def concat (ps : List Program) : Program := ps.foldl append ⟨0, true⟩

/-- A choice between programs. -/
def choice (ps : List Program) : Program :=
  ⟨ps.foldr (fun p n => p.bytes + 4 + n) (2 * stateSize), ps.all (·.zeroWidth)⟩

/-- A repetition of a program: as many copies as there must be, then those that may be, each with a
way around it, or a loop. What passes over no character is repeated once at most. -/
def repeated (min : Nat) (max : Option Nat) (p : Program) : Program :=
  let min := if p.zeroWidth then Nat.min min 1 else min
  let max := if p.zeroWidth then some (Nat.min (max.getD 1) 1) else max
  match max with
  | some 0 => empty
  | some m =>
    let optional := (m - min) * (stateSize + 8 + p.bytes)
    ⟨min * p.bytes + optional + (if min < m then stateSize else 0), p.zeroWidth⟩
  | none => ⟨(if min = 0 then 1 else min) * p.bytes + stateSize + 8, p.zeroWidth⟩

end Program

/-! ## Characters and classes -/

/-- The program of a character: a state for each of its bytes. -/
def Literal.program (l : Literal) : Program := .ofBytes (l.char.utf8Size * stateSize)

/-- The program of any character but a line break. -/
def dotProgram : Program := .ofBytes 1000

/-- The bytes of a class of ASCII characters with a number of ranges. -/
def asciiSize (ranges : Nat) : Nat := 2 * stateSize + 8 * ranges

/-- The bytes that a range of characters adds to a class. -/
def rangeSize (last : Char) : Nat := if last.toNat < 0x80 then 8 else 6 * stateSize

/-- The bytes of the program of a shorthand. -/
def Shorthand.size (unicode : Bool) : Shorthand → Nat
  | .digit => if unicode then 4640 else asciiSize 1
  | .blank => if unicode then 680 else asciiSize 3
  | .word => if unicode then 48168 else asciiSize 4

/-- The bytes of the program of a class with a name, which are those of a large one. -/
def Query.size : Query → Nat
  | .name n => if ["n", "nd", "p", "s"].contains (Property.normalize n) then 10000 else 41352
  | .value _ _ => 41352

/-- Fails with a cause unless a condition holds. -/
def demand (holds : Bool) (cause : Cause) (span : Span) : Except Error Unit :=
  if holds then .ok () else .error ⟨cause, span, none⟩

/-- A character outside of classes must be no byte that is half a character. -/
def Literal.check (unicode : Bool) (l : Literal) : Except Error Unit :=
  demand (unicode || !l.isByte || l.char.toNat < 0x80) .invalidUtf8 l.span

/-- A character in a class of bytes must be a byte of ASCII. -/
def Literal.checkInClass (unicode : Bool) (l : Literal) : Except Error Unit :=
  demand (unicode || l.char.toNat < 0x80)
    (if l.isByte then .invalidUtf8 else .unicodeNotAllowed) l.span

/-- A class may be negated only where it holds characters, not bytes. -/
def checkNegation (unicode negated : Bool) (span : Span) : Except Error Unit :=
  demand (unicode || !negated) .invalidUtf8 span

/-- A class with a name must be known, and stand where classes hold characters. -/
def Query.check (unicode : Bool) (q : Query) (span : Span) : Except Error Unit := do
  demand unicode .unicodeNotAllowed span
  let finding := match q with
    | .name n => Property.lookUpName n
    | .value p v => Property.lookUpValue p v
  match finding with
  | .found => .ok ()
  | .noProperty => .error ⟨.propertyNotFound, span, none⟩
  | .noValue => .error ⟨.propertyValueNotFound, span, none⟩

mutual

/-- The bytes of the program of a class. -/
def ClassSet.size (unicode : Bool) : ClassSet → Except Error Nat
  | .item i => i.size unicode
  | .op _ left right => do
    let a ← left.size unicode
    let b ← right.size unicode
    return max a b

def ClassItem.size (unicode : Bool) : ClassItem → Except Error Nat
  | .empty _ => .ok 0
  | .literal l => do
    l.checkInClass unicode
    return rangeSize l.char
  | .range _ first last => do
    first.checkInClass unicode
    last.checkInClass unicode
    return rangeSize last.char
  | .ascii span negated => do
    checkNegation unicode negated span
    return if negated then 1000 else asciiSize 3
  | .property span _ query => do
    query.check unicode span
    return query.size
  | .shorthand span negated kind => do
    checkNegation unicode negated span
    return kind.size unicode
  | .bracketed span negated set => do
    let n ← set.size unicode
    checkNegation unicode negated span
    return if negated then n + 1000 else n
  | .union _ items => sizes unicode items

def sizes (unicode : Bool) : List ClassItem → Except Error Nat
  | [] => .ok 0
  | i :: is => do
    let a ← i.size unicode
    let b ← sizes unicode is
    return a + b

end

/-! ## Patterns -/

/-- Measuring keeps whether patterns are about characters here, which flags turn off and on. -/
abbrev Measuring := StateT Bool (Except Error)

/-- Sets the state that flags ask for. -/
def Flags.apply (flags : Flags) : Measuring Unit :=
  match flags.state .unicode with
  | some b => set b
  | none => pure ()

mutual

/-- The program of a pattern. What flags set holds up to the end of their group. -/
def Node.measure : Node → Measuring Program
  | .empty _ => return .empty
  | .flags _ flags => do
    flags.apply
    return .empty
  | .literal l => do
    l.check (← get)
    return l.program
  | .dot span => do
    demand (← get) .invalidUtf8 span
    return dotProgram
  | .assertion _ => return .empty
  | .property span _ query => do
    query.check (← get) span
    return .ofBytes query.size
  | .shorthand span negated kind => do
    checkNegation (← get) negated span
    return .ofBytes (kind.size (← get))
  | .bracketed span negated set => do
    let unicode ← get
    let n ← set.size unicode
    checkNegation unicode negated span
    return .ofBytes (2 * stateSize + (if negated then n + 1000 else n))
  | .repetition _ min max body => do
    let p ← body.measure
    return p.repeated min max
  | .group _ captures flags body => do
    let outer ← get
    flags.apply
    let p ← body.measure
    set outer
    return if captures then { p with bytes := p.bytes + 2 * stateSize } else p
  | .alternation _ branches => return .choice (← measureAll branches)
  | .concat _ parts => return .concat (← measureAll parts)

def measureAll : List Node → Measuring (List Program)
  | [] => return []
  | n :: ns => do
    let p ← n.measure
    let ps ← measureAll ns
    return p :: ps

end

/-- The measure of a pattern's program; patterns are about characters unless flags say else. -/
def Node.program (n : Node) : Except Error Program := (·.1) <$> n.measure.run true

end SchemaTree.Pattern
