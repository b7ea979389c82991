import Mathlib.Algebra.Group.Nat.Defs
import SchemaTree.Json.Number

/-!
# Numbers stay in range

A double is *within* `b` if it is finite, its mantissa fits, and its exponent is at most `b`.
Rounding a quotient of moderate size gives such a double, however the quotient is written.

* `Double.within_round`: **a quotient below `2^(b + 52)` is rounded to a double within `b`.**
* `Double.within_ofNat`, `Double.Within.div`: integers of 64 bits are within 12, and stay so
  when they are divided by powers of ten.
* `Number.regular_ofLiteral`: **the number of a literal is an integer of 64 bits or a finite
  double.**
-/

namespace SchemaTree

namespace Double

/-- A finite double with a mantissa that fits and an exponent of at most `b`. -/
def Within (b : Int) (d : Double) : Prop :=
  ∃ s m q, d = finite s m q ∧ m < mantissaLimit ∧ q ≤ b

theorem Within.isFinite {b : Int} {d : Double} (h : d.Within b) : d.isFinite = true := by
  obtain ⟨s, m, q, rfl, -, -⟩ := h
  rfl

/-! ## Rounding -/

theorem nearest_le (num den : Nat) : nearest num den ≤ num / den + 1 := by
  unfold nearest
  dsimp only
  split <;> omega

theorem le_nearest (num den : Nat) : num / den ≤ nearest num den := by
  unfold nearest
  dsimp only
  split <;> omega

theorem fittingExponent_cases (num den : Nat) :
    let guess : Int := (num.log2 : Int) - (den.log2 : Int) - 53
    (num * (scale guess).2 / (den * (scale guess).1) < mantissaLimit ∧
        fittingExponent num den = max guess minExponent) ∨
      fittingExponent num den = max (guess + 1) minExponent := by
  intro guess
  have hdef : fittingExponent num den =
      max (if num * (scale guess).2 / (den * (scale guess).1) < mantissaLimit then guess
        else guess + 1) minExponent := rfl
  by_cases htry : num * (scale guess).2 / (den * (scale guess).1) < mantissaLimit
  · rw [if_pos htry] at hdef
    exact Or.inl ⟨htry, hdef⟩
  · rw [if_neg htry] at hdef
    exact Or.inr hdef

variable {num den : Nat} {q : Int}

theorem quotient_lt (hden : den ≠ 0) (hq : (num.log2 : Int) - (den.log2 : Int) - 52 ≤ q) :
    num * (scale q).2 / (den * (scale q).1) < mantissaLimit := by
  have hpos : 0 < den * (scale q).1 :=
    Nat.mul_pos (Nat.pos_of_ne_zero hden) (Nat.two_pow_pos q.toNat)
  rw [Nat.div_lt_iff_lt_mul hpos]
  have hnum : num < 2 ^ (num.log2 + 1) := Nat.lt_log2_self
  have hlog : 2 ^ den.log2 ≤ den := Nat.log2_self_le hden
  have hexp : num.log2 + 1 + (-q).toNat ≤ 53 + (den.log2 + q.toNat) := by omega
  calc num * (scale q).2
      < 2 ^ (num.log2 + 1) * 2 ^ (-q).toNat := Nat.mul_lt_mul_of_pos_right hnum (Nat.two_pow_pos _)
    _ = 2 ^ (num.log2 + 1 + (-q).toNat) := (Nat.pow_add 2 _ _).symm
    _ ≤ 2 ^ (53 + (den.log2 + q.toNat)) := Nat.pow_le_pow_right (by decide) hexp
    _ = 2 ^ 53 * (2 ^ den.log2 * 2 ^ q.toNat) := by rw [Nat.pow_add, Nat.pow_add]
    _ ≤ mantissaLimit * (den * (scale q).1) :=
      Nat.mul_le_mul_left _ (Nat.mul_le_mul_right _ hlog)

/-- **The mantissa fits at the exponent that is chosen for it.** -/
theorem quotient_fittingExponent_lt (hden : den ≠ 0) :
    num * (scale (fittingExponent num den)).2 / (den * (scale (fittingExponent num den)).1) <
      mantissaLimit := by
  rcases fittingExponent_cases num den with ⟨htry, hq⟩ | hq
  · by_cases hleast : minExponent ≤ (num.log2 : Int) - (den.log2 : Int) - 53
    · rwa [hq, Int.max_eq_left hleast]
    · exact quotient_lt hden (by omega)
  · exact quotient_lt hden (by omega)

theorem fittingExponent_le (num den : Nat) :
    fittingExponent num den ≤ max ((num.log2 : Int) - (den.log2 : Int) - 52) minExponent := by
  rcases fittingExponent_cases num den with ⟨-, hq⟩ | hq <;> omega

/-- **What a quotient is rounded to**: a double whose mantissa fits, at an exponent that its size
tells, or infinity if that exponent is too large. -/
theorem round_eq (negative : Bool) (hnum : num ≠ 0) (hden : den ≠ 0) :
    ∃ m q, m < mantissaLimit ∧
      q ≤ max ((num.log2 : Int) - (den.log2 : Int) - 51) (minExponent + 1) ∧
      round negative num den =
        if q > maxExponent then infinite negative else finite negative m q := by
  have hq := fittingExponent_le num den
  have hlt : num * (scale (fittingExponent num den)).2 /
      (den * (scale (fittingExponent num den)).1) < mantissaLimit :=
    quotient_fittingExponent_lt hden
  have hnear := nearest_le (num * (scale (fittingExponent num den)).2)
    (den * (scale (fittingExponent num den)).1)
  rw [round, if_neg hnum]
  generalize fittingExponent num den = q at hq hlt hnear ⊢
  dsimp only
  generalize nearest (num * (scale q).2) (den * (scale q).1) = m at hnear ⊢
  by_cases hm : m = mantissaLimit
  · refine ⟨leastFull, q + 1, by decide, by omega, ?_⟩
    rw [if_pos hm]
  · refine ⟨m, q, by omega, by omega, ?_⟩
    rw [if_neg hm]

/-- **A quotient of moderate size is rounded to a double within the same bound.** -/
theorem within_round (negative : Bool) {b : Int} (hden : den ≠ 0) (hmin : minExponent < b)
    (hmax : b ≤ maxExponent)
    (hb : num ≠ 0 → (num.log2 : Int) - (den.log2 : Int) - 51 ≤ b) :
    (round negative num den).Within b := by
  by_cases hnum : num = 0
  · rw [round, if_pos hnum]
    exact ⟨negative, 0, minExponent, rfl, by decide, by omega⟩
  · obtain ⟨m, q, hm, hq, heq⟩ := round_eq negative hnum hden
    have hlog := hb hnum
    rw [heq, if_neg (by omega)]
    exact ⟨negative, m, q, rfl, hm, by omega⟩

theorem isFinite_round (negative : Bool) (num : Nat) (hden : den ≠ 0)
    (h : (round negative num den).isInfinite = false) :
    (round negative num den).isFinite = true := by
  by_cases hnum : num = 0
  · rw [round, if_pos hnum]
    rfl
  · obtain ⟨m, q, -, -, heq⟩ := round_eq negative hnum hden
    rw [heq] at h ⊢
    split at h
    · cases h
    · rename_i hq
      rw [if_neg hq]
      rfl

/-! ## Numbers of 64 bits and powers of ten -/

theorem within_ofNat {n : Nat} (h : n < 2 ^ 64) (negative : Bool) :
    (round negative n 1).Within 12 := by
  have hlog : n.log2 ≤ 63 := by
    by_cases hn : n = 0
    · rw [hn]
      decide
    · have hlt : n.log2 < 64 := (Nat.log2_lt hn).mpr h
      omega
  have hone : Nat.log2 1 = 0 := by decide
  refine within_round negative Nat.one_ne_zero (by decide) (by decide) fun _ => ?_
  rw [hone]
  omega

theorem isFinite_ofInt {i : Int} (h : i.natAbs < 2 ^ 64) : (ofInt i).isFinite = true :=
  (within_ofNat h _).isFinite

/-- A finite double that is no less than `2^e`, apart from its sign. -/
def AtLeast (e : Int) (d : Double) : Prop :=
  ∃ s m q, d = finite s m q ∧ m ≠ 0 ∧ e ≤ q + (m.log2 : Int)

instance (e : Int) : DecidablePred (AtLeast e)
  | finite s m q => decidable_of_iff (m ≠ 0 ∧ e ≤ q + (m.log2 : Int)) <| by
    refine ⟨fun h => ⟨s, m, q, rfl, h⟩, ?_⟩
    rintro ⟨s', m', q', heq, h⟩
    cases heq
    exact h
  | infinite _ => isFalse fun ⟨_, _, _, heq, _⟩ => nomatch heq
  | nan => isFalse fun ⟨_, _, _, heq, _⟩ => nomatch heq

theorem AtLeast.isFinite {d : Double} {e : Int} (h : d.AtLeast e) : d.isFinite = true := by
  obtain ⟨s, m, q, rfl, -, -⟩ := h
  rfl

theorem AtLeast.mono {d : Double} {e e' : Int} (h : d.AtLeast e) (hle : e' ≤ e) :
    d.AtLeast e' := by
  obtain ⟨s, m, q, rfl, hm, he⟩ := h
  exact ⟨s, m, q, rfl, hm, Int.le_trans hle he⟩

/-- **The double nearest to a natural number has as many digits as it.** -/
theorem atLeast_ofNat {n : Nat} (hn : n ≠ 0) (hmax : n.log2 ≤ 1022) :
    (ofNat n).AtLeast n.log2 := by
  have hleast : minExponent = -1074 := rfl
  have hmost : maxExponent = 971 := rfl
  have hone : Nat.log2 1 = 0 := by decide
  have hq := fittingExponent_le n 1
  rw [ofNat, round, if_neg hn]
  generalize fittingExponent n 1 = q at hq ⊢
  have hpow : 2 ^ ((n.log2 : Int) - q).toNat * 2 ^ q.toNat ≤ n * 2 ^ (-q).toNat :=
    calc 2 ^ ((n.log2 : Int) - q).toNat * 2 ^ q.toNat
        = 2 ^ (n.log2 + (-q).toNat) := by
          rw [← Nat.pow_add]
          congr 1
          omega
      _ = 2 ^ n.log2 * 2 ^ (-q).toNat := Nat.pow_add 2 _ _
      _ ≤ n * 2 ^ (-q).toNat := Nat.mul_le_mul_right _ (Nat.log2_self_le hn)
  have hsize : 2 ^ ((n.log2 : Int) - q).toNat ≤ nearest (n * (scale q).2) (1 * (scale q).1) := by
    refine Nat.le_trans ?_ (le_nearest _ _)
    rw [Nat.one_mul]
    exact (Nat.le_div_iff_mul_le (Nat.two_pow_pos q.toNat)).mpr hpow
  dsimp only
  generalize nearest (n * (scale q).2) (1 * (scale q).1) = m at hsize ⊢
  have hm : m ≠ 0 := Nat.ne_of_gt (Nat.lt_of_lt_of_le (Nat.two_pow_pos _) hsize)
  have hlog : ((n.log2 : Int) - q).toNat ≤ m.log2 := (Nat.le_log2 hm).mpr hsize
  by_cases hlimit : m = mantissaLimit
  · have hfull : mantissaLimit.log2 = leastFull.log2 + 1 := by decide
    rw [if_pos hlimit]
    refine ⟨false, leastFull, q + 1, if_neg (by omega), by decide, ?_⟩
    rw [hlimit, hfull] at hlog
    omega
  · rw [if_neg hlimit]
    exact ⟨false, m, q, if_neg (by omega), hm, by omega⟩

theorem log2_le_log2 {m n : Nat} (hm : m ≠ 0) (h : m ≤ n) : m.log2 ≤ n.log2 :=
  Nat.le_of_lt_succ ((Nat.log2_lt hm).mpr (Nat.lt_of_le_of_lt h Nat.lt_log2_self))

theorem atLeast_powTen_largest : (powTen 308).AtLeast 1 := by decide +kernel

theorem atLeast_powTen {n : Nat} (h : n ≤ 308) : (powTen n).AtLeast 0 := by
  -- The largest power is so close to the largest doubles that its digits alone do not tell.
  rcases Nat.lt_or_eq_of_le h with hlt | rfl
  · have hne : Nat.pow 10 n ≠ 0 := Nat.ne_of_gt (Nat.pow_pos (by decide))
    have hmono : ∀ k, n ≤ k → (Nat.pow 10 n).log2 ≤ (Nat.pow 10 k).log2 :=
      fun _ hk => log2_le_log2 hne (Nat.pow_le_pow_right (by decide) hk)
    have hlog : (Nat.pow 10 n).log2 ≤ 1022 :=
      Nat.le_trans (hmono 307 (Nat.le_of_lt_succ hlt)) (by decide +kernel)
    exact (atLeast_ofNat hne hlog).mono (Int.natCast_nonneg _)
  · exact atLeast_powTen_largest.mono (by decide)

theorem log2_mul_two_pow {m : Nat} (hm : m ≠ 0) (k : Nat) : (m * 2 ^ k).log2 = m.log2 + k := by
  induction k with
  | zero => rw [Nat.pow_zero, Nat.mul_one, Nat.add_zero]
  | succ k ih =>
    have hne : m * 2 ^ k ≠ 0 := Nat.mul_ne_zero hm (Nat.ne_of_gt (Nat.two_pow_pos k))
    rw [Nat.pow_succ, ← Nat.mul_assoc, Nat.mul_comm _ 2, Nat.log2_two_mul hne, ih, Nat.add_assoc]

/-- **A quotient is no larger than its numerator and its denominator tell.** -/
theorem Within.div {d e : Double} {b b' k : Int} (hd : d.Within b) (he : e.AtLeast k)
    (hmin : minExponent < b') (hmax : b' ≤ maxExponent) (hb : b + 1 - k ≤ b') :
    (d.div e).Within b' := by
  obtain ⟨s, m, q, rfl, hm, hq⟩ := hd
  obtain ⟨s', m', q', rfl, hm', hk⟩ := he
  have hden : m' * (scale (q - q')).2 ≠ 0 := Nat.mul_ne_zero hm' (Nat.ne_of_gt (Nat.two_pow_pos _))
  rw [Double.div, if_neg hm']
  refine within_round _ hden hmin hmax fun hnum => ?_
  have hmne : m ≠ 0 := fun h => hnum (by rw [h, Nat.zero_mul])
  have hlog : m.log2 < 53 := (Nat.log2_lt hmne).mpr hm
  have hup : (m * Nat.pow 2 (q - q').toNat).log2 = m.log2 + (q - q').toNat :=
    log2_mul_two_pow hmne _
  have hdown : (m' * Nat.pow 2 (-(q - q')).toNat).log2 = m'.log2 + (-(q - q')).toNat :=
    log2_mul_two_pow hm' _
  rw [hup, hdown]
  omega

theorem isFinite_mul {d e : Double} (hd : d.isFinite = true) (he : e.isFinite = true)
    (h : (d.mul e).isInfinite = false) : (d.mul e).isFinite = true := by
  cases d with
  | infinite s => cases hd
  | nan => cases hd
  | finite s m q =>
    cases e with
    | infinite s' => cases he
    | nan => cases he
    | finite s' m' q' => exact isFinite_round _ _ (Nat.ne_of_gt (Nat.two_pow_pos _)) h

theorem isFinite_neg {d : Double} (h : d.isFinite = true) : d.neg.isFinite = true := by
  cases d with
  | finite s m q => rfl
  | infinite s => cases h
  | nan => cases h

end Double

/-! ## Literals -/

namespace Json.Number

open Double

/-- An integer that 64 bits can hold, or a finite double. -/
def Regular : Number → Prop
  | integer i => i.natAbs < 2 ^ 64
  | double d => d.isFinite = true

theorem collect_le {s : Nat} (hs : s ≤ maxSignificand) (ds : List Nat) :
    (collect s ds).1 ≤ maxSignificand := by
  induction ds generalizing s with
  | nil => exact hs
  | cons d ds ih =>
    rw [collect]
    split
    · rename_i hd
      exact ih hd
    · exact hs

/-- **A power of ten takes a double of 64 bits to a finite one, or out of range.** -/
theorem isFinite_toPower {f g : Double} {e : Int} {fuel : Nat} (hf : f.Within 12)
    (h : toPower f e fuel = some g) : g.isFinite = true := by
  induction fuel generalizing f e with
  | zero =>
    cases h
    exact hf.isFinite
  | succ fuel ih =>
    rw [toPower] at h
    split at h
    · rename_i he
      have hten := atLeast_powTen he
      split at h
      · dsimp only at h
        split at h
        · cases h
        · rename_i hinf
          cases h
          rw [Bool.not_eq_true] at hinf
          exact isFinite_mul hf.isFinite hten.isFinite hinf
      · cases h
        have hdiv : (f.div (powTen e.natAbs)).Within 13 :=
          hf.div hten (by decide) (by decide) (by decide)
        exact hdiv.isFinite
    · split at h
      · cases h
        exact hf.isFinite
      · split at h
        · cases h
        · have hdiv : (f.div (powTen 308)).Within 12 :=
            hf.div atLeast_powTen_largest (by decide) (by decide) (by decide)
          exact ih hdiv h

theorem isFinite_scaled {negative : Bool} {s : Nat} {e : Int} {g : Double}
    (hs : s ≤ maxSignificand) (h : scaled negative s e = some g) : g.isFinite = true := by
  obtain ⟨f, hf, rfl⟩ := Option.map_eq_some_iff.mp h
  have hlt : s < 2 ^ 64 := Nat.lt_of_le_of_lt hs (by decide)
  have hfin := isFinite_toPower (within_ofNat hlt false) hf
  split
  · exact isFinite_neg hfin
  · exact hfin

theorem natAbs_wholeNumber? {negative : Bool} {s : Nat} {i : Int} (hs : s ≤ maxSignificand)
    (h : wholeNumber? negative s = some i) : i.natAbs < 2 ^ 64 := by
  have hlt : s < 2 ^ 64 := Nat.lt_of_le_of_lt hs (by decide)
  rw [wholeNumber?] at h
  split at h
  · split at h
    · cases h
      omega
    · cases h
  · cases h
    omega

theorem regular_of_scaled {negative : Bool} {s : Nat} {e : Int} {n : Number}
    (hs : s ≤ maxSignificand) (h : (scaled negative s e).map double = some n) : n.Regular := by
  obtain ⟨g, hg, rfl⟩ := Option.map_eq_some_iff.mp h
  exact isFinite_scaled hs hg

theorem regular_of_exponent {negative down : Bool} {s : Nat} {start : Int} {ds : List Nat}
    {n : Number} (hs : s ≤ maxSignificand)
    (h : (match exponentOf 0 ds with
      | some e => (scaled negative s (if down then start - e else start + e)).map double
      | none =>
        if s = 0 || down then some (double (.finite negative 0 Double.minExponent))
        else none) = some n) : n.Regular := by
  split at h
  · exact regular_of_scaled hs h
  · split at h
    · cases h
      rfl
    · cases h

/-- **The number of a literal is an integer of 64 bits or a finite double.** -/
theorem regular_ofLiteral {l : Literal} {n : Number} (h : ofLiteral l = some n) : n.Regular := by
  have hs := collect_le (Nat.zero_le maxSignificand) l.whole
  unfold ofLiteral at h
  generalize collect 0 l.whole = whole at hs h
  obtain ⟨s, taken, left⟩ := whole
  dsimp only at hs h
  cases hfraction : l.fraction with
  | none =>
    cases hexponent : l.exponent with
    | none =>
      simp only [hfraction, hexponent] at h
      split at h
      · rename_i i hi
        cases h
        split at hi
        · exact natAbs_wholeNumber? hs hi
        · cases hi
      · exact regular_of_scaled hs h
    | some x =>
      simp only [hfraction, hexponent] at h
      exact regular_of_exponent hs h
  | some ds =>
    have hs' := collect_le hs ds
    cases hexponent : l.exponent with
    | none =>
      simp only [hfraction, hexponent] at h
      exact regular_of_scaled hs' h
    | some x =>
      simp only [hfraction, hexponent] at h
      exact regular_of_exponent hs' h

end Json.Number

end SchemaTree
