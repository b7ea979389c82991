/-!
# Double-precision numbers

A `Double` is a binary64 number written out: a sign, a mantissa and an exponent
of two, or one of the values that are no number.  All arithmetic is exact
arithmetic on natural numbers followed by one rounding, so everything about it
can be computed and reasoned about.

* `Double.round`: **the double nearest to a quotient**, a half going to the even
  mantissa, with overflow to infinity.
* `Double.mul`, `Double.div`: one rounding of the exact result.
* `Double.toInt?`: the integer a double is, if it is one.
* `Double.same`: equality of numbers, where `0 = -0` and nothing equals `nan`.
-/

namespace SchemaTree

/-- A binary64 number: `finite s m q` is `m·2^q`, negated if `s`. -/
inductive Double where
  | finite (negative : Bool) (mantissa : Nat) (exponent : Int)
  | infinite (negative : Bool)
  | nan
  deriving DecidableEq, Repr, Inhabited

namespace Double

/-! ## Limits of the format -/

/-- The number of binary digits of a full mantissa. -/
def precision : Nat := 53

/-- The least mantissa that is full. -/
def leastFull : Nat := Nat.pow 2 (precision - 1)

/-- The least number that is too large for a mantissa. -/
def mantissaLimit : Nat := Nat.pow 2 precision

/-- The exponent of the smallest positive double. -/
def minExponent : Int := -1074

/-- The exponent of the largest doubles. -/
def maxExponent : Int := 971

/-- A double is canonical if its mantissa is full, or its exponent is the least. -/
def Canonical : Double → Prop
  | finite _ m q =>
    m < mantissaLimit ∧ minExponent ≤ q ∧ q ≤ maxExponent ∧ (leastFull ≤ m ∨ q = minExponent)
  | infinite _ => True
  | nan => True

/-! ## Rounding -/

/-- `2^q` as a factor of a numerator (`q ≥ 0`) and of a denominator (`q ≤ 0`). -/
def scale (q : Int) : Nat × Nat := (Nat.pow 2 q.toNat, Nat.pow 2 (-q).toNat)

/-- The natural number nearest to `num / den`, a half going to the even one. -/
def nearest (num den : Nat) : Nat :=
  let quotient := num / den
  let rest := 2 * (num % den)
  if rest > den || (rest == den && quotient % 2 == 1) then quotient + 1 else quotient

/-- The exponent at which `num / den` has a full mantissa, if that is not below the least. -/
def fittingExponent (num den : Nat) : Int :=
  let guess : Int := (num.log2 : Int) - (den.log2 : Int) - (precision : Int)
  let (up, down) := scale guess
  let exponent := if num * down / (den * up) < mantissaLimit then guess else guess + 1
  max exponent minExponent

/-- The double nearest to `num / den`, a half going to the even mantissa. -/
def round (negative : Bool) (num den : Nat) : Double :=
  if num = 0 then finite negative 0 minExponent
  else
    let q := fittingExponent num den
    let (up, down) := scale q
    let m := nearest (num * down) (den * up)
    let (m, q) := if m = mantissaLimit then (leastFull, q + 1) else (m, q)
    if q > maxExponent then infinite negative else finite negative m q

/-- The double nearest to a natural number. -/
def ofNat (n : Nat) : Double := round false n 1

/-- The double nearest to an integer. -/
def ofInt (i : Int) : Double := round (i < 0) i.natAbs 1

/-- The double nearest to a power of ten. -/
def powTen (n : Nat) : Double := ofNat (Nat.pow 10 n)

/-! ## Arithmetic -/

/-- The same number with the other sign. -/
def neg : Double → Double
  | finite s m q => finite (!s) m q
  | infinite s => infinite (!s)
  | nan => nan

def isZero : Double → Bool
  | finite _ m _ => m == 0
  | _ => false

def isFinite : Double → Bool
  | finite .. => true
  | _ => false

def isInfinite : Double → Bool
  | infinite _ => true
  | _ => false

/-- The product, rounded once. -/
def mul : Double → Double → Double
  | finite s m q, finite s' m' q' =>
    let (up, down) := scale (q + q')
    round (s != s') (m * m' * up) down
  | finite s m _, infinite s' => if m = 0 then nan else infinite (s != s')
  | infinite s, finite s' m _ => if m = 0 then nan else infinite (s != s')
  | infinite s, infinite s' => infinite (s != s')
  | nan, _ => nan
  | _, nan => nan

/-- The quotient, rounded once. -/
def div : Double → Double → Double
  | finite s m q, finite s' m' q' =>
    if m' = 0 then (if m = 0 then nan else infinite (s != s'))
    else
      let (up, down) := scale (q - q')
      round (s != s') (m * up) (m' * down)
  | finite s _ _, infinite s' => finite (s != s') 0 minExponent
  | infinite s, finite s' _ _ => infinite (s != s')
  | infinite _, infinite _ => nan
  | nan, _ => nan
  | _, nan => nan

/-! ## Comparison and integers -/

/-- Equality of numbers: the two zeros are equal, and `nan` differs from all. -/
def same : Double → Double → Bool
  | finite s m q, finite s' m' q' => (m == 0 && m' == 0) || (s == s' && m == m' && q == q')
  | infinite s, infinite s' => s == s'
  | _, _ => false

/-- The integer that a double is, if it is finite and has no fraction. -/
def toInt? : Double → Option Int
  | finite s m q =>
    let (up, down) := scale q
    if m * up % down = 0 then
      let n : Int := (m * up / down : Nat)
      some (if s then -n else n)
    else none
  | infinite _ => none
  | nan => none

end Double

end SchemaTree
