import SchemaTree.Number.Shortest

/-!
# JSON numbers

A JSON number is kept as an integer where its literal is one of 64 bits, and as
a double everywhere else.  `Number.ofLiteral` says which of the two a literal
is, and which double:

* digits are collected into a significand as long as it fits 64 bits; the digits
  of the whole part that follow only raise the power of ten, those of the
  fraction are dropped;
* the significand is then brought to its power of ten by one multiplication or
  division of doubles, or by several divisions below `1e-308`, so **the result may
  differ from the nearest double in the last digit**;
* a product that overflows is no number.
-/

namespace SchemaTree.Json

/-- A number of a JSON text. -/
inductive Number where
  | integer (i : Int)
  | double (d : Double)
  deriving DecidableEq, Repr, Inhabited

/-- The parts of a number literal; digits are given by their values. -/
structure Literal where
  negative : Bool
  whole : List Nat
  fraction : Option (List Nat)
  exponent : Option (Bool × List Nat)
  deriving Repr

namespace Number

/-! ## Reading -/

/-- The largest significand. -/
def maxSignificand : Nat := 18446744073709551615

/-- The number below which the integers of 64 bits with a sign lie, and below the negation of which
none lies. -/
def signedLimit : Nat := 9223372036854775808

/-- The largest power of ten that a literal may write down. -/
def maxExponent : Nat := 2147483647

/-- Collects digits while the significand fits; the result also counts the digits taken and
those left over. -/
def collect (significand : Nat) : List Nat → Nat × Nat × Nat
  | [] => (significand, 0, 0)
  | d :: ds =>
    if significand * 10 + d ≤ maxSignificand then
      let (s, taken, left) := collect (significand * 10 + d) ds
      (s, taken + 1, left)
    else (significand, 0, ds.length + 1)

/-- The value of a list of digits, unless it passes the limit for exponents. -/
def exponentOf (value : Nat) : List Nat → Option Nat
  | [] => some value
  | d :: ds => if value * 10 + d ≤ maxExponent then exponentOf (value * 10 + d) ds else none

/-- Brings a double to the power of ten `e`; `fuel` bounds the divisions by `1e308`. -/
def toPower (f : Double) (e : Int) : Nat → Option Double
  | 0 => some f
  | fuel + 1 =>
    if e.natAbs ≤ 308 then
      if 0 ≤ e then
        let product := f.mul (.powTen e.natAbs)
        if product.isInfinite then none else some product
      else some (f.div (.powTen e.natAbs))
    else if f.isZero then some f
    else if 0 ≤ e then none
    else toPower (f.div (.powTen 308)) (e + 308) fuel

/-- `±significand·10^e` as a double. -/
def scaled (negative : Bool) (significand : Nat) (e : Int) : Option Double :=
  (toPower (.ofNat significand) e (e.natAbs / 308 + 1)).map fun f => if negative then f.neg else f

/-- The integer of a literal without fraction and exponent, if it has 64 bits; `-0` is none. -/
def wholeNumber? (negative : Bool) (significand : Nat) : Option Int :=
  if negative then
    if significand != 0 && significand ≤ signedLimit then some (-(significand : Int)) else none
  else some significand

/-- The number of a literal, or `none` if it is out of range. -/
def ofLiteral (l : Literal) : Option Number :=
  let (s, _, left) := collect 0 l.whole
  let start : Int := left
  let plain : Option Number :=
    match if left = 0 then wholeNumber? l.negative s else none with
    | some i => some (integer i)
    | none => (scaled l.negative s start).map double
  let (s', start') :=
    match l.fraction with
    | none => (s, start)
    | some ds =>
      let (s', taken, _) := collect s ds
      (s', start - taken)
  match l.fraction, l.exponent with
  | none, none => plain
  | _, none => (scaled l.negative s' start').map double
  | _, some (down, ds) =>
    match exponentOf 0 ds with
    | some e => (scaled l.negative s' (if down then start' - e else start' + e)).map double
    | none =>
      if s' = 0 || down then some (double (.finite l.negative 0 Double.minExponent)) else none

/-! ## Printing -/

/-- The text of a number; a double that is no number is written as `null`. -/
def render : Number → String
  | integer i => toString i
  | double d => if d.isFinite then d.render else "null"

/-- The number a double is written as where integers are preferred: the integer it is, if it is
one of 64 bits. The double `2^63` is written as the largest of them. -/
def preferInteger (d : Double) : Number :=
  match d.toInt? with
  | some i =>
    if i.natAbs ≤ signedLimit then integer (min i (signedLimit - 1 : Nat)) else double d
  | none => double d

/-- Equality of numbers; an integer never equals a double. -/
def same : Number → Number → Bool
  | integer i, integer j => i == j
  | double d, double e => d.same e
  | _, _ => false

end Number

end SchemaTree.Json
