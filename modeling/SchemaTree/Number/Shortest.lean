import SchemaTree.Number.Double

/-!
# Shortest decimal text of a double

**The fewest digits that read back**: among the decimals that round to a given
double, those with the fewest digits are kept, and of these the nearest one.
The digits are found in exact arithmetic: for 1, 2, … 17 digits the two
neighbours of the number on that decimal grid are tried.

`Double.render` lays the digits out: positional from `1e-5` up to below `1e16`,
with at least one digit after the point, and with an explicit sign of the
exponent beyond.
-/

namespace SchemaTree.Double

/-! ## The digits -/

/-- A positive double scaled to whole numbers: the number and the ends of the interval that
rounds to it are `value / den`, `low / den` and `high / den`; the ends belong to it if `closed`. -/
structure Interval where
  low : Nat
  value : Nat
  high : Nat
  den : Nat
  closed : Bool

/-- The interval of reals that round to `m·2^q`; below a power of two the gap is half as wide. -/
def interval (m : Nat) (q : Int) : Interval :=
  let (up, down) := scale (q - 2)
  let below := if m = leastFull && q > minExponent then 1 else 2
  { low := (4 * m - below) * up, value := 4 * m * up, high := (4 * m + 2) * up,
    den := down, closed := m % 2 == 0 }

/-- Whether `n·10^e` lies in the interval. -/
def Interval.has (r : Interval) (n : Nat) (e : Int) : Bool :=
  let (up, down) := (Nat.pow 10 e.toNat, Nat.pow 10 (-e).toNat)
  let point := n * up * r.den
  if r.closed then r.low * down ≤ point && point ≤ r.high * down
  else r.low * down < point && point < r.high * down

/-- A decimal: `digits·10^exponent`. -/
structure Decimal where
  digits : Nat
  exponent : Int
  deriving DecidableEq, Repr

/-- The neighbour of the number on the grid of multiples of `10^e` that lies in its interval;
of two the nearer, of two equally near the even one. -/
def Interval.onGrid (r : Interval) (e : Int) : Option Decimal :=
  let num := r.value * Nat.pow 10 (-e).toNat
  let den := r.den * Nat.pow 10 e.toNat
  let lower := num / den
  let rest := 2 * (num % den)
  match lower != 0 && r.has lower e, r.has (lower + 1) e with
  | true, true =>
    if rest < den || (rest == den && lower % 2 == 0) then some ⟨lower, e⟩ else some ⟨lower + 1, e⟩
  | true, false => some ⟨lower, e⟩
  | false, true => some ⟨lower + 1, e⟩
  | false, false => none

/-- The largest `k` with `10^k ≤ num / den`, found from a binary estimate. -/
def decimalExponent (num den : Nat) : Int :=
  let bits : Int := (num.log2 : Int) - (den.log2 : Int) - 1
  let guess := bits * 30103 / 100000 - 1
  let fits (k : Int) : Bool := Nat.pow 10 k.toNat * den ≤ num * Nat.pow 10 (-k).toNat
  if fits (guess + 3) then guess + 3
  else if fits (guess + 2) then guess + 2
  else if fits (guess + 1) then guess + 1
  else guess

/-- The first grid with a hit, from `fuel` remaining digit counts. -/
def Interval.search (r : Interval) (first : Int) : Nat → Decimal
  | 0 => ⟨r.value / r.den, 0⟩
  | fuel + 1 =>
    match r.onGrid (first - (17 - fuel)) with
    | some d => d
    | none => r.search first fuel

/-- The shortest decimal that rounds to `m·2^q`, for `m > 0`. -/
def shortest (m : Nat) (q : Int) : Decimal :=
  let r := interval m q
  r.search (decimalExponent r.value r.den + 1) 17

/-! ## The layout -/

/-- The decimal digits of a number without the zeros at its end, and how many there were. -/
def trimZeros (ds : List Char) : List Char × Nat :=
  let zeros := (ds.reverse.takeWhile (· == '0')).length
  (ds.take (ds.length - zeros), zeros)

/-- The digits `d₁ d₂ …` with the point after the digit of weight `10^top`. -/
def layout (digits : List Char) (top : Int) : String :=
  if -5 ≤ top && top < 16 then
    if top < 0 then
      "0." ++ String.ofList (List.replicate (-top - 1).toNat '0' ++ digits)
    else
      let whole := top.toNat + 1
      let before := digits.take whole ++ List.replicate (whole - digits.length) '0'
      let after := digits.drop whole
      String.ofList before ++ "." ++ (if after.isEmpty then "0" else String.ofList after)
  else
    let after := digits.drop 1
    let mantissa := String.ofList (digits.take 1) ++
      (if after.isEmpty then "" else "." ++ String.ofList after)
    mantissa ++ (if top < 0 then "e-" else "e+") ++ toString top.natAbs

/-- The decimal text of a double; what is no number has a name of three letters. -/
def render : Double → String
  | finite s m q =>
    let body :=
      if m = 0 then "0.0"
      else
        let d := shortest m q
        let (digits, zeros) := trimZeros (Nat.toDigits 10 d.digits)
        layout digits (d.exponent + zeros + digits.length - 1)
    if s then "-" ++ body else body
  | infinite s => if s then "-inf" else "inf"
  | nan => "NaN"

end SchemaTree.Double
