import Mathlib.Tactic.LinearCombination
import Mathlib.Tactic.Ring
import SchemaTree.Json.Value
import SchemaTree.Proofs.Number.Magnitude

/-!
# The double nearest to an integer

Distances between doubles are told in units of the smallest positive double, of which every finite
double is a multiple, so that they are distances of integers.

* `Double.IsNearest`: no double is closer to an integer, and none with an odd mantissa was taken
  where two are equally close.
* `Double.exists_nearest`: **`ofInt` takes integers to the nearest double**, which is an integer
  again.
* `IsNearest.eq_of_double`: an integer that is a double stays as it is, and every integer of up to
  53 bits is one (`exists_double`).
* `Json.Value.ofBound_of_isNearest`: how it is written in a document.  Below `2^63` it is written
  as the integer, and above as a double.
-/

namespace SchemaTree

namespace Double

/-! ## Distances -/

/-- How many of the smallest positive doubles make one. -/
@[irreducible] def unit : Int := 2 ^ minExponent.natAbs

theorem unit_pos : 0 < unit := by
  rw [unit]
  exact pow_pos (by decide) _

theorem natCast_unit : ((2 ^ minExponent.natAbs : Nat) : Int) = unit := by
  rw [unit, Nat.cast_pow, Nat.cast_ofNat]

/-- A finite double in units of the smallest positive one. -/
def units? : Double → Option Int
  | finite s m q => some ((if s then -(m : Int) else m) * 2 ^ (q - minExponent).toNat)
  | infinite _ => none
  | nan => none

/-- **A double that is nearest to an integer**, and is an integer itself. -/
structure IsNearest (n : Int) (d : Double) (x : Int) : Prop where
  canonical : d.Canonical
  integer : d.toInt? = some x
  closest : ∀ (e : Double) (v : Int), e.Canonical → e.units? = some v →
    (n * unit - x * unit).natAbs ≤ (n * unit - v).natAbs
  /-- If another double is equally close, the mantissa is even. -/
  even : ∀ (e : Double) (v : Int), e.Canonical → e.units? = some v →
    (n * unit - x * unit).natAbs = (n * unit - v).natAbs →
      v = x * unit ∨ ∃ s m q, d = finite s m q ∧ m % 2 = 0

section

variable {num den : Nat}

theorem nearest_cases (num den : Nat) :
    nearest num den = num / den ∧ 2 * (num % den) ≤ den ∧
        (2 * (num % den) = den → num / den % 2 = 0) ∨
      nearest num den = num / den + 1 ∧ den ≤ 2 * (num % den) ∧
        (2 * (num % den) = den → num / den % 2 = 1) := by
  unfold nearest
  dsimp only
  generalize num / den = quotient
  generalize num % den = rest
  split
  · rename_i hup
    simp only [Bool.or_eq_true, decide_eq_true_eq, Bool.and_eq_true, beq_iff_eq] at hup
    omega
  · rename_i hdown
    simp only [Bool.or_eq_true, decide_eq_true_eq, Bool.and_eq_true, beq_iff_eq] at hdown
    omega

theorem distance_below {j i : Nat} (h : num / den = j + i) :
    ((num : Int) - j * den).natAbs = num % den + i * den := by
  have hnum : (num : Int) = ((j + i) * den + num % den : Nat) := by
    rw [← h, Nat.div_add_mod']
  have hdistance : (num : Int) - j * den = (num % den + i * den : Nat) := by
    rw [hnum]
    push_cast
    ring
  rw [hdistance, Int.natAbs_natCast]

theorem distance_above (hden : 0 < den) {j i : Nat} (h : j = num / den + 1 + i) :
    ((num : Int) - j * den).natAbs = (den - num % den) + i * den := by
  have hrest : num % den < den := Nat.mod_lt num hden
  have hnum : (num : Int) = (num / den * den + num % den : Nat) := by
    rw [Nat.div_add_mod']
  have hdistance : (num : Int) - j * den = -((den - num % den : Nat) + (i * den : Nat)) := by
    rw [hnum, h]
    push_cast [hrest.le]
    ring
  rw [hdistance, Int.natAbs_neg, ← Int.natCast_add, Int.natAbs_natCast]

/-- **No natural number is closer to a quotient than the one that it is rounded to**, and at a tie
that one is even. -/
theorem nearest_closest (hden : 0 < den) (j : Nat) :
    ((num : Int) - nearest num den * den).natAbs ≤ ((num : Int) - j * den).natAbs ∧
      (((num : Int) - nearest num den * den).natAbs = ((num : Int) - j * den).natAbs →
        j = nearest num den ∨ nearest num den % 2 = 0) := by
  have hrest : num % den < den := Nat.mod_lt num hden
  have hstep : ∀ i : Nat, i = 0 ∨ den ≤ i * den := fun i =>
    i.eq_zero_or_pos.imp_right (Nat.le_mul_of_pos_left den)
  have hnearest : ((num : Int) - nearest num den * den).natAbs =
      if nearest num den = num / den then num % den else den - num % den := by
    rcases nearest_cases num den with ⟨hm, -⟩ | ⟨hm, -⟩
    · have hbelow : num / den = nearest num den + 0 := hm.symm
      rw [if_pos hm, distance_below hbelow, Nat.zero_mul, Nat.add_zero]
    · have habove : nearest num den = num / den + 1 + 0 := hm
      rw [if_neg (by omega), distance_above hden habove, Nat.zero_mul, Nat.add_zero]
  rw [hnearest]
  -- Any other number is some steps of `den` farther away, on the same side or on the other one.
  rcases Nat.lt_or_ge (num / den) j with hj | hj
  · obtain ⟨i, hi⟩ := Nat.exists_eq_add_of_le (Nat.succ_le_of_lt hj)
    rw [distance_above hden hi]
    rcases nearest_cases num den with ⟨hm, hhalf, heven⟩ | ⟨hm, hhalf, heven⟩
    · rw [if_pos hm]
      omega
    · rw [if_neg (by omega)]
      rcases hstep i with rfl | hi' <;> omega
  · obtain ⟨i, hi⟩ := Nat.exists_eq_add_of_le hj
    rw [distance_below hi]
    rcases nearest_cases num den with ⟨hm, hhalf, heven⟩ | ⟨hm, hhalf, heven⟩
    · rw [if_pos hm]
      rcases hstep i with rfl | hi' <;> omega
    · rw [if_neg (by omega)]
      omega

end

/-! ## Natural numbers -/

section

variable {a : Nat}

theorem two_pow_le_scaled (ha : a ≠ 0) {q : Int} {k : Nat} (h : q + k = a.log2) :
    2 ^ k ≤ a * (scale q).2 / (scale q).1 := by
  refine (Nat.le_div_iff_mul_le (Nat.two_pow_pos _)).mpr ?_
  calc 2 ^ k * 2 ^ q.toNat
      = 2 ^ (a.log2 + (-q).toNat) := by
        rw [← Nat.pow_add]
        congr 1
        omega
    _ = 2 ^ a.log2 * 2 ^ (-q).toNat := Nat.pow_add 2 _ _
    _ ≤ a * 2 ^ (-q).toNat := Nat.mul_le_mul_right _ (Nat.log2_self_le ha)

/-- The exponent at which a natural number has a full mantissa. -/
def leading (a : Nat) : Int := (a.log2 : Int) - 52

theorem fittingExponent_one (ha : a ≠ 0) : fittingExponent a 1 = leading a := by
  have hone : Nat.log2 1 = 0 := by decide
  have hmin : minExponent = -1074 := rfl
  have hlead : leading a = (a.log2 : Int) - 52 := rfl
  rcases fittingExponent_cases a 1 with ⟨htry, -⟩ | hq
  · -- One exponent below, the mantissa is too large.
    have hfull := two_pow_le_scaled ha (q := (a.log2 : Int) - (Nat.log2 1 : Nat) - 53) (k := 53)
      (by omega)
    rw [Nat.one_mul] at htry
    exact absurd htry (Nat.not_lt.mpr hfull)
  · omega

/-- The mantissa of a natural number, before it is made to fit. -/
def mantissaOf (a : Nat) : Nat := nearest (a * (scale (leading a)).2) (scale (leading a)).1

theorem mantissaOf_bounds (ha : a ≠ 0) :
    leastFull ≤ mantissaOf a ∧ mantissaOf a ≤ mantissaLimit := by
  have hdown := le_nearest (a * (scale (leading a)).2) (scale (leading a)).1
  have hup := nearest_le (a * (scale (leading a)).2) (scale (leading a)).1
  have hlow : 2 ^ 52 ≤ a * (scale (leading a)).2 / (scale (leading a)).1 :=
    two_pow_le_scaled ha (Int.sub_add_cancel _ _)
  have hhigh := @quotient_fittingExponent_lt a 1 Nat.one_ne_zero
  rw [fittingExponent_one ha, Nat.one_mul] at hhigh
  exact ⟨Nat.le_trans hlow hdown, Nat.le_trans hup hhigh⟩

/-- **What a natural number is rounded to.** -/
theorem round_one (negative : Bool) (ha : a ≠ 0) (hmax : a.log2 ≤ 1022) :
    round negative a 1 =
      if mantissaOf a = mantissaLimit then finite negative leastFull (leading a + 1)
      else finite negative (mantissaOf a) (leading a) := by
  have hmost : maxExponent = 971 := rfl
  have hexp : leading a + 1 ≤ maxExponent := by
    unfold leading
    omega
  rw [round, if_neg ha, fittingExponent_one ha]
  dsimp only
  rw [Nat.one_mul]
  by_cases hm : mantissaOf a = mantissaLimit
  · rw [if_pos hm]
    rw [mantissaOf] at hm
    rw [if_pos hm]
    exact if_neg (by omega)
  · rw [if_neg hm]
    rw [mantissaOf] at hm ⊢
    rw [if_neg hm]
    exact if_neg (by omega)

/-- A mantissa at an exponent in units. -/
def unitsAt (m : Nat) (q : Int) : Nat := m * 2 ^ (q - minExponent).toNat

theorem distance_scaled {q : Int} (hq : minExponent ≤ q) (j : Nat) :
    ((a : Int) * unit - unitsAt j q).natAbs * (scale q).1 =
      (((a * (scale q).2 : Nat) : Int) - j * (scale q).1).natAbs * 2 ^ (q - minExponent).toNat := by
  have hmin : minExponent = -1074 := rfl
  have hpow : unit * 2 ^ q.toNat = 2 ^ (-q).toNat * 2 ^ (q - minExponent).toNat := by
    rw [unit, ← pow_add, ← pow_add]
    congr 1
    omega
  have hint : ((a : Int) * unit - unitsAt j q) * 2 ^ q.toNat =
      ((a : Int) * 2 ^ (-q).toNat - j * 2 ^ q.toNat) * 2 ^ (q - minExponent).toNat := by
    rw [unitsAt]
    push_cast
    linear_combination (a : Int) * hpow
  have habs := congrArg Int.natAbs hint
  rw [Int.natAbs_mul, Int.natAbs_mul, Int.natAbs_pow, Int.natAbs_pow] at habs
  simpa [scale] using habs

theorem mantissaOf_closest_multiple (a j : Nat) :
    ((a : Int) * unit - unitsAt (mantissaOf a) (leading a)).natAbs ≤
        ((a : Int) * unit - unitsAt j (leading a)).natAbs ∧
      (((a : Int) * unit - unitsAt (mantissaOf a) (leading a)).natAbs =
          ((a : Int) * unit - unitsAt j (leading a)).natAbs →
        j = mantissaOf a ∨ mantissaOf a % 2 = 0) := by
  have hmin : minExponent = -1074 := rfl
  have hlead : minExponent ≤ leading a := by
    unfold leading
    omega
  have hden : 0 < (scale (leading a)).1 := Nat.two_pow_pos _
  have hstep : 0 < 2 ^ (leading a - minExponent).toNat := Nat.two_pow_pos _
  obtain ⟨hle, htie⟩ := @nearest_closest (a * (scale (leading a)).2) _ hden j
  have hmantissa := @distance_scaled a _ hlead (mantissaOf a)
  have hj := @distance_scaled a _ hlead j
  constructor
  · refine Nat.le_of_mul_le_mul_right ?_ hden
    rw [hmantissa, hj]
    exact Nat.mul_le_mul_right _ hle
  · intro heq
    refine htie (Nat.eq_of_mul_eq_mul_right hstep ?_)
    rw [← hj, ← heq, hmantissa]
    rfl

/-- **No double is closer to a natural number than its mantissa at its exponent**, and at a tie the
mantissa is even. -/
theorem mantissaOf_closest (ha : a ≠ 0) {m : Nat} {q : Int} (hm : m < mantissaLimit)
    (hq : minExponent ≤ q) :
    ((a : Int) * unit - unitsAt (mantissaOf a) (leading a)).natAbs ≤
        ((a : Int) * unit - unitsAt m q).natAbs ∧
      (((a : Int) * unit - unitsAt (mantissaOf a) (leading a)).natAbs =
          ((a : Int) * unit - unitsAt m q).natAbs →
        unitsAt m q = unitsAt (mantissaOf a) (leading a) ∨ mantissaOf a % 2 = 0) := by
  have hmin : minExponent = -1074 := rfl
  have hlead : leading a = (a.log2 : Int) - 52 := rfl
  rcases lt_or_ge q (leading a) with hlt | hge
  · -- A smaller exponent leads no further than to the power of two below the number.
    have hbelow : unitsAt m q < unitsAt (2 ^ 52) (leading a) :=
      calc m * 2 ^ (q - minExponent).toNat
          < 2 ^ 53 * 2 ^ (q - minExponent).toNat :=
            Nat.mul_lt_mul_of_pos_right hm (Nat.two_pow_pos _)
        _ = 2 ^ (53 + (q - minExponent).toNat) := (Nat.pow_add 2 _ _).symm
        _ ≤ 2 ^ (52 + (leading a - minExponent).toNat) :=
          Nat.pow_le_pow_right (by decide) (by omega)
        _ = 2 ^ 52 * 2 ^ (leading a - minExponent).toNat := Nat.pow_add 2 _ _
    have hnumber : (unitsAt (2 ^ 52) (leading a) : Int) ≤ a * unit := by
      have hexp : 52 + (leading a - minExponent).toNat = a.log2 + minExponent.natAbs := by omega
      have hlog : ((2 ^ a.log2 : Nat) : Int) ≤ a := Int.ofNat_le.mpr (Nat.log2_self_le ha)
      rw [unitsAt, ← Nat.pow_add, hexp, Nat.pow_add, Nat.cast_mul, natCast_unit]
      exact mul_le_mul_of_nonneg_right hlog unit_pos.le
    have hfull := (mantissaOf_closest_multiple a (2 ^ 52)).1
    omega
  · -- At a larger exponent there are only multiples.
    have hmultiple : unitsAt m q = unitsAt (m * 2 ^ (q - leading a).toNat) (leading a) := by
      rw [unitsAt, unitsAt, Nat.mul_assoc, ← Nat.pow_add]
      congr 2
      omega
    obtain ⟨hle, htie⟩ := mantissaOf_closest_multiple a (m * 2 ^ (q - leading a).toNat)
    rw [hmultiple]
    exact ⟨hle, fun heq => (htie heq).imp_left fun hj => by rw [hj]⟩

theorem exists_round_one (negative : Bool) (ha : a ≠ 0) (hmax : a.log2 ≤ 1022) :
    ∃ m q, round negative a 1 = finite negative m q ∧ (finite negative m q).Canonical ∧
      unitsAt m q = unitsAt (mantissaOf a) (leading a) ∧ (mantissaOf a % 2 = 0 → m % 2 = 0) := by
  have hmin : minExponent = -1074 := rfl
  have hmost : maxExponent = 971 := rfl
  have hlead : leading a = (a.log2 : Int) - 52 := rfl
  obtain ⟨hfull, hlimit⟩ := mantissaOf_bounds ha
  rw [round_one negative ha hmax]
  by_cases hm : mantissaOf a = mantissaLimit
  · rw [if_pos hm]
    refine ⟨leastFull, leading a + 1, rfl, ⟨by decide, by omega, by omega, Or.inl (le_refl _)⟩, ?_,
      fun _ => by decide⟩
    have hexp : (leading a + 1 - minExponent).toNat = 1 + (leading a - minExponent).toNat := by
      omega
    rw [hm, unitsAt, hexp, Nat.pow_add, ← Nat.mul_assoc]
    rfl
  · rw [if_neg hm]
    exact ⟨mantissaOf a, leading a, rfl, ⟨by omega, by omega, by omega, Or.inl hfull⟩, rfl, id⟩

theorem exists_integer (a : Nat) :
    ∃ x : Nat, unitsAt (mantissaOf a) (leading a) = x * 2 ^ minExponent.natAbs := by
  have hmin : minExponent = -1074 := rfl
  have hlead : leading a = (a.log2 : Int) - 52 := rfl
  rcases lt_or_ge (leading a) 0 with hlt | hge
  · -- With few digits nothing is rounded.
    have hden : (scale (leading a)).1 = 1 := by
      have hzero : (leading a).toNat = 0 := by omega
      rw [scale, hzero]
    have hexact : mantissaOf a = a * 2 ^ (-leading a).toNat := by
      rw [mantissaOf, hden]
      rcases nearest_cases (a * (scale (leading a)).2) 1 with ⟨hm, -⟩ | ⟨-, hhalf, -⟩
      · rw [hm, Nat.div_one]
        rfl
      · omega
    refine ⟨a, ?_⟩
    rw [hexact, unitsAt, Nat.mul_assoc, ← Nat.pow_add]
    congr 2
    omega
  · refine ⟨mantissaOf a * 2 ^ (leading a).toNat, ?_⟩
    rw [unitsAt, Nat.mul_assoc, ← Nat.pow_add]
    congr 2
    omega

end

/-! ## Integers -/

section

variable {m x : Nat} {q : Int}

theorem unitsAt_eq_iff (hq : minExponent ≤ q) :
    unitsAt m q = x * 2 ^ minExponent.natAbs ↔ m * (scale q).1 = x * (scale q).2 := by
  have hmin : minExponent = -1074 := rfl
  have hleft : unitsAt m q * 2 ^ (-q).toNat = m * 2 ^ q.toNat * 2 ^ minExponent.natAbs := by
    rw [unitsAt, Nat.mul_assoc, Nat.mul_assoc, ← Nat.pow_add, ← Nat.pow_add]
    congr 2
    omega
  have hright : x * 2 ^ minExponent.natAbs * 2 ^ (-q).toNat =
      x * 2 ^ (-q).toNat * 2 ^ minExponent.natAbs := Nat.mul_right_comm _ _ _
  constructor
  · intro h
    rw [h, hright] at hleft
    exact (Nat.eq_of_mul_eq_mul_right (Nat.two_pow_pos _) hleft).symm
  · intro h
    have hscaled : m * 2 ^ q.toNat = x * 2 ^ (-q).toNat := h
    rw [hscaled, ← hright] at hleft
    exact Nat.eq_of_mul_eq_mul_right (Nat.two_pow_pos _) hleft

theorem toInt?_of_unitsAt (hq : minExponent ≤ q)
    (h : unitsAt m q = x * 2 ^ minExponent.natAbs) (s : Bool) :
    (finite s m q).toInt? = some (if s then -(x : Int) else x) := by
  have hpos : 0 < (scale q).2 := Nat.two_pow_pos _
  unfold toInt?
  dsimp only
  rw [(unitsAt_eq_iff hq).mp h, Nat.mul_mod_left, if_pos rfl, Nat.mul_div_cancel x hpos]

theorem units?_of_toInt? {d : Double} {x : Int} (hd : d.Canonical) (h : d.toInt? = some x) :
    d.units? = some (x * unit) := by
  cases d with
  | infinite s => cases h
  | nan => cases h
  | finite s m q =>
    obtain ⟨-, hq, -, -⟩ := hd
    unfold toInt? at h
    dsimp only at h
    split at h
    · rename_i hdvd
      have hscaled := (Nat.div_mul_cancel (Nat.dvd_of_mod_eq_zero hdvd)).symm
      have hunits := (unitsAt_eq_iff hq).mpr hscaled
      have hint := congrArg (Nat.cast (R := Int)) hunits
      rw [unitsAt] at hint
      push_cast at hint
      cases Option.some.inj h
      rw [units?, unit]
      cases s
      · simpa using hint
      · simpa using hint
    · cases h

theorem exists_unitsAt {e : Double} {v : Int} (he : e.Canonical) (hv : e.units? = some v) :
    ∃ m q, m < mantissaLimit ∧ minExponent ≤ q ∧
      (v = (unitsAt m q : Int) ∨ v = -(unitsAt m q : Int)) := by
  cases e with
  | infinite s => cases hv
  | nan => cases hv
  | finite s m q =>
    obtain ⟨hm, hq, -, -⟩ := he
    refine ⟨m, q, hm, hq, ?_⟩
    cases Option.some.inj hv
    rw [unitsAt]
    cases s
    · exact Or.inl (by push_cast; rfl)
    · exact Or.inr (by push_cast; rw [← neg_mul]; rfl)

end

theorem closest_of_signs {number double other v : Int} (hpos : 0 < number) (hother : 0 ≤ other)
    (hv : v = other ∨ v = -other)
    (h : (number - double).natAbs ≤ (number - other).natAbs) :
    (number - double).natAbs ≤ (number - v).natAbs ∧
      ((number - double).natAbs = (number - v).natAbs →
        (number - double).natAbs = (number - other).natAbs ∧ (other = double → v = double)) := by
  rcases hv with rfl | rfl
  · exact ⟨h, fun heq => ⟨heq, id⟩⟩
  · have hle : (number - other).natAbs ≤ (number - -other).natAbs := by omega
    refine ⟨Nat.le_trans h hle, fun heq => ?_⟩
    have hzero : other = 0 := by omega
    subst hzero
    exact ⟨heq, fun hd => hd⟩

/-- **No double is closer to an integer than the integer with its sign that has as many units as
the mantissa.** -/
theorem signed_closest {n : Int} (hn : n ≠ 0) {x : Nat}
    (hx : (x : Int) * unit = unitsAt (mantissaOf n.natAbs) (leading n.natAbs)) {e : Double}
    {v : Int} (he : e.Canonical) (hv : e.units? = some v) :
    (n * unit - (if n < 0 then -(x : Int) else x) * unit).natAbs ≤ (n * unit - v).natAbs ∧
      ((n * unit - (if n < 0 then -(x : Int) else x) * unit).natAbs = (n * unit - v).natAbs →
        v = (if n < 0 then -(x : Int) else x) * unit ∨ mantissaOf n.natAbs % 2 = 0) := by
  have ha : n.natAbs ≠ 0 := Int.natAbs_ne_zero.mpr hn
  have hpos : 0 < (n.natAbs : Int) * unit := mul_pos (by omega) unit_pos
  obtain ⟨m, q, hm, hq, hv⟩ := exists_unitsAt he hv
  obtain ⟨hle, htie⟩ := mantissaOf_closest ha hm hq
  rw [← hx] at hle htie
  by_cases hneg : n < 0
  · -- Without the signs of all three numbers.
    have hnumber : n * unit = -((n.natAbs : Int) * unit) := by
      rw [Int.ofNat_natAbs_of_nonpos hneg.le, neg_mul, neg_neg]
    have hflip : ∀ w : Int, (n * unit - w).natAbs = ((n.natAbs : Int) * unit - -w).natAbs := by
      intro w
      rw [hnumber, ← Int.natAbs_neg]
      congr 1
      ring
    have hv' : -v = (unitsAt m q : Int) ∨ -v = -(unitsAt m q : Int) := by
      rcases hv with rfl | rfl
      · exact Or.inr rfl
      · exact Or.inl (neg_neg _)
    obtain ⟨hclosest, heq⟩ := closest_of_signs hpos (Int.natCast_nonneg _) hv' hle
    rw [if_pos hneg, hflip, hflip, neg_mul, neg_neg]
    refine ⟨hclosest, fun h => ?_⟩
    obtain ⟨hties, hback⟩ := heq h
    rcases htie hties with hw | hw
    · refine Or.inl ?_
      rw [← hback (by rw [hw, hx]), neg_neg]
    · exact Or.inr hw
  · have hnumber : n * unit = (n.natAbs : Int) * unit := by
      rw [Int.natAbs_of_nonneg (not_lt.mp hneg)]
    obtain ⟨hclosest, heq⟩ := closest_of_signs hpos (Int.natCast_nonneg _) hv hle
    rw [if_neg hneg, hnumber]
    refine ⟨hclosest, fun h => ?_⟩
    obtain ⟨hties, hback⟩ := heq h
    exact (htie hties).imp_left fun hw => hback (by rw [hw, hx])

/-- **An integer of 64 bits is taken to the nearest double.** -/
theorem exists_nearest {n : Int} (h : n.natAbs < 2 ^ 64) : ∃ x, IsNearest n (ofInt n) x := by
  by_cases hn : n = 0
  · subst hn
    have hzero : (ofInt 0).toInt? = some 0 :=
      @toInt?_of_unitsAt 0 0 minExponent (le_refl _) (by simp [unitsAt]) false
    have hsame : (0 * unit - 0 * unit).natAbs = 0 := by simp
    refine ⟨0, ⟨by decide, by decide, by decide, Or.inr rfl⟩, hzero, fun e v _ _ => ?_,
      fun e v _ _ _ => Or.inr ⟨false, 0, minExponent, rfl, rfl⟩⟩
    rw [hsame]
    exact Nat.zero_le _
  · have ha : n.natAbs ≠ 0 := Int.natAbs_ne_zero.mpr hn
    have hmax : n.natAbs.log2 ≤ 1022 := by
      have hlog : n.natAbs.log2 < 64 := (Nat.log2_lt ha).mpr h
      omega
    obtain ⟨m, q, hround, hcanonical, hunits, heven⟩ := exists_round_one (n < 0) ha hmax
    obtain ⟨x, hx⟩ := exists_integer n.natAbs
    have hof : ofInt n = finite (n < 0) m q := hround
    have hint : (ofInt n).toInt? = some (if n < 0 then -(x : Int) else x) := by
      rw [hof, toInt?_of_unitsAt hcanonical.2.1 (hunits.trans hx)]
      simp
    have hcast : (x : Int) * unit = unitsAt (mantissaOf n.natAbs) (leading n.natAbs) := by
      rw [hx, Nat.cast_mul, natCast_unit]
    refine ⟨_, hof ▸ hcanonical, hint, fun e v he hv => (signed_closest hn hcast he hv).1,
      fun e v he hv htie => ?_⟩
    exact ((signed_closest hn hcast he hv).2 htie).imp_right fun hm => ⟨_, m, q, hof, heven hm⟩

variable {n x y : Int} {d e : Double}

theorem IsNearest.closest_integer (h : IsNearest n d x) (he : e.Canonical)
    (hy : e.toInt? = some y) : (n - x).natAbs ≤ (n - y).natAbs := by
  have hclosest := h.closest e (y * unit) he (units?_of_toInt? he hy)
  rw [← sub_mul, ← sub_mul, Int.natAbs_mul, Int.natAbs_mul] at hclosest
  exact Nat.le_of_mul_le_mul_right hclosest (Int.natAbs_pos.mpr unit_pos.ne')

/-- **An integer that is a double stays as it is.** -/
theorem IsNearest.eq_of_double (h : IsNearest n d x) (he : e.Canonical)
    (hn : e.toInt? = some n) : x = n := by
  have hclosest := h.closest_integer he hn
  omega

theorem exists_double_of_le {a : Nat} (ha : a ≠ 0) (h : a ≤ 2 ^ 53) (s : Bool) :
    ∃ e : Double, e.Canonical ∧ e.toInt? = some (if s then -(a : Int) else a) := by
  have hmin : minExponent = -1074 := rfl
  have hmax : maxExponent = 971 := rfl
  rcases Nat.lt_or_eq_of_le h with hlt | rfl
  · -- The mantissa is filled up with zeros.
    have hlog : a.log2 ≤ 52 := Nat.le_of_lt_succ ((Nat.log2_lt ha).mpr hlt)
    obtain ⟨k, hk⟩ := Nat.exists_eq_add_of_le hlog
    have hbelow : a * 2 ^ k < 2 ^ 53 := by
      calc a * 2 ^ k < 2 ^ (a.log2 + 1) * 2 ^ k :=
            Nat.mul_lt_mul_of_pos_right Nat.lt_log2_self (Nat.two_pow_pos k)
        _ = 2 ^ 53 := by
            rw [← Nat.pow_add]
            congr 1
            omega
    have hfull : 2 ^ 52 ≤ a * 2 ^ k := by
      calc 2 ^ 52 = 2 ^ a.log2 * 2 ^ k := by rw [← Nat.pow_add, ← hk]
        _ ≤ a * 2 ^ k := Nat.mul_le_mul_right _ (Nat.log2_self_le ha)
    have hleast : minExponent ≤ -(k : Int) := by omega
    have hscale : scale (-(k : Int)) = (1, 2 ^ k) := by
      rw [scale, Int.neg_neg, Int.toNat_natCast, Int.toNat_of_nonpos (by omega)]
      rfl
    refine ⟨finite s (a * 2 ^ k) (-k), ⟨hbelow, hleast, by omega, Or.inl hfull⟩, ?_⟩
    refine toInt?_of_unitsAt hleast ((unitsAt_eq_iff hleast).mpr ?_) s
    rw [hscale, Nat.mul_one]
  · exact ⟨finite s leastFull 1, ⟨by decide, by decide, by decide, Or.inl (le_refl _)⟩,
      by cases s <;> decide⟩

/-- **Every integer of up to 53 bits is a double.** -/
theorem exists_double (h : n.natAbs ≤ 2 ^ 53) : ∃ e : Double, e.Canonical ∧ e.toInt? = some n := by
  by_cases hn : n = 0
  · subst hn
    exact ⟨finite false 0 minExponent, ⟨by decide, by decide, by decide, Or.inr rfl⟩,
      @toInt?_of_unitsAt 0 0 minExponent (le_refl _) (by simp [unitsAt]) false⟩
  · obtain ⟨e, he, hint⟩ := exists_double_of_le (Int.natAbs_ne_zero.mpr hn) h (n < 0)
    have hsign : (if (decide (n < 0)) = true then -(n.natAbs : Int) else n.natAbs) = n := by
      by_cases hneg : n < 0
      · rw [if_pos (decide_eq_true hneg), Int.ofNat_natAbs_of_nonpos hneg.le, neg_neg]
      · rw [if_neg (by simpa using hneg), Int.natAbs_of_nonneg (not_lt.mp hneg)]
    exact ⟨e, he, by rw [hint, hsign]⟩

theorem IsNearest.le_of_le (h : IsNearest n d x) (he : e.Canonical) (hy : e.toInt? = some y)
    (hle : y ≤ n) : y ≤ x := by
  have hclosest := h.closest_integer he hy
  omega

end Double

open Double in
/-- **How a bound is written**: as the integer below `2^63`, and as the double above. -/
theorem Json.Value.ofBound_of_isNearest {n x : Int} {d : Double} (h : IsNearest n d x)
    (hn : -2 ^ 63 ≤ n) :
    (x < 2 ^ 63 → Value.ofBound d = .number (.integer x)) ∧
      (2 ^ 63 < x → Value.ofBound d = .number (.double d)) := by
  have hlimit : Number.signedLimit = 2 ^ 63 := rfl
  have hlow : -2 ^ 63 ≤ x := by
    have hcanonical : (finite true leastFull 11).Canonical :=
      ⟨by decide, by decide, by decide, Or.inl (le_refl _)⟩
    exact h.le_of_le hcanonical (by decide) hn
  constructor
  · intro hx
    have hprefer : Number.preferInteger d = .integer x := by
      rw [Number.preferInteger, h.integer]
      dsimp only
      rw [if_pos (by omega), min_eq_left (by omega)]
    rw [Value.ofBound, hprefer]
  · intro hx
    have hprefer : Number.preferInteger d = .double d := by
      rw [Number.preferInteger, h.integer]
      dsimp only
      rw [if_neg (by omega)]
    have hfinite : d.isFinite = true := by
      cases d with
      | finite s m q => rfl
      | infinite s => cases h.integer
      | nan => cases h.integer
    rw [Value.ofBound, hprefer]
    exact if_pos hfinite

end SchemaTree
