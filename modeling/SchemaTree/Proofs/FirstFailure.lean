import Mathlib.Data.List.Induction
import Mathlib.Data.List.Nodup

/-!
# Checks in sequence

Many loops go through a list, check each element with the elements before it at hand, and stop at
the first one that is refused.  `checkAll` is such a loop.

* `checkAll_ok_iff`: it succeeds if no element is refused behind those before it.
* `checkAll_error_iff`: **it fails with the error of the first element that is refused.**
* `nodup_map_iff`: what is distinct, as a condition on each element and those before it.
-/

namespace SchemaTree

variable {α β ε : Type}

theorem map_ok_iff {f : α → β} {r : Except ε α} {b : β} :
    r.map f = .ok b ↔ ∃ a, r = .ok a ∧ f a = b := by
  cases r <;> simp [Except.map]

theorem map_error_iff {f : α → β} {r : Except ε α} {e : ε} :
    r.map f = .error e ↔ r = .error e := by
  cases r <;> simp [Except.map]

theorem mapError_ok_iff {ε' : Type} {f : ε → ε'} {r : Except ε α} {a : α} :
    r.mapError f = .ok a ↔ r = .ok a := by
  cases r <;> simp [Except.mapError]

theorem toOption_eq_some_iff {r : Except ε α} {a : α} : r.toOption = some a ↔ r = .ok a := by
  cases r <;> simp [Except.toOption]

theorem bind_ok_iff {r : Except ε α} {f : α → Except ε β} {b : β} :
    r >>= f = .ok b ↔ ∃ a, r = .ok a ∧ f a = .ok b := by
  cases r with
  | error e =>
    constructor
    · exact fun h => nomatch h
    · rintro ⟨_, h, _⟩
      cases h
  | ok a =>
    constructor
    · exact fun h => ⟨a, rfl, h⟩
    · rintro ⟨_, ha, h⟩
      cases ha
      exact h

theorem exists_of_forall₂ {R : α → β → Prop} {as : List α} {bs : List β}
    (h : List.Forall₂ R as bs) : ∀ b ∈ bs, ∃ a ∈ as, R a b := by
  induction h with
  | nil => exact fun b hb => absurd hb List.not_mem_nil
  | cons hab _ ih =>
    refine List.forall_mem_cons.mpr ⟨⟨_, List.mem_cons_self, hab⟩, fun b hb => ?_⟩
    obtain ⟨a, ha, hab⟩ := ih b hb
    exact ⟨a, List.mem_cons_of_mem _ ha, hab⟩

theorem exists_getElem?_of_forall₂ {R : α → β → Prop} {as : List α} {bs : List β} {i : Nat} {a : α}
    (h : List.Forall₂ R as bs) (ha : as[i]? = some a) : ∃ b, bs[i]? = some b ∧ R a b := by
  induction h generalizing i with
  | nil => exact nomatch ha
  | cons hab _ ih =>
    cases i with
    | zero =>
      cases ha
      exact ⟨_, rfl, hab⟩
    | succ i => exact ih ha

/-! ## Loops -/

/-- Checks the elements of a list behind others, up to the first that is refused. -/
def checkAll (check : List α → α → Except ε β) (before : List α) : List α → Except ε (List β)
  | [] => .ok []
  | x :: xs =>
    match check before x with
    | .error e => .error e
    | .ok b => (checkAll check (before ++ [x]) xs).map (b :: ·)

theorem forall_split_cons {P : List α → α → Prop} {x : α} {xs : List α} :
    (∀ before y after, x :: xs = before ++ y :: after → P before y) ↔
      P [] x ∧ ∀ before y after, xs = before ++ y :: after → P (x :: before) y := by
  constructor
  · intro h
    refine ⟨h [] x xs rfl, ?_⟩
    intro before y after hxs
    exact h (x :: before) y after (by rw [hxs, List.cons_append])
  · rintro ⟨hx, hxs⟩ before y after heq
    cases before with
    | nil =>
      obtain ⟨rfl, -⟩ := List.cons.inj heq
      exact hx
    | cons z before =>
      obtain ⟨rfl, htail⟩ := List.cons.inj heq
      exact hxs before y after htail

theorem forall_split_concat {P : List α → α → Prop} {x : α} {xs : List α} :
    (∀ before y after, xs ++ [x] = before ++ y :: after → P before y) ↔
      (∀ before y after, xs = before ++ y :: after → P before y) ∧ P xs x := by
  induction xs generalizing P with
  | nil =>
    rw [List.nil_append, forall_split_cons]
    simp
  | cons z xs ih =>
    rw [List.cons_append, forall_split_cons, forall_split_cons, ih, and_assoc]

theorem nodup_map_iff {f : α → β} {xs : List α} :
    (xs.map f).Nodup ↔
      ∀ before x after, xs = before ++ x :: after → f x ∉ before.map f := by
  induction xs using List.reverseRecOn with
  | nil => simp
  | append_singleton xs x ih =>
    have hnodup : ((xs ++ [x]).map f).Nodup ↔ (xs.map f).Nodup ∧ f x ∉ xs.map f := by
      rw [List.map_append, List.map_singleton, ← List.concat_eq_append, List.nodup_concat]
      exact and_comm
    rw [hnodup, forall_split_concat, ih]

variable {check : List α → α → Except ε β} {before xs : List α} {x : α} {e : ε} {bs : List β}

theorem checkAll_cons_ok_iff :
    checkAll check before (x :: xs) = .ok bs ↔
      ∃ b bs', check before x = .ok b ∧ checkAll check (before ++ [x]) xs = .ok bs' ∧
        bs = b :: bs' := by
  rw [checkAll]
  cases check before x with
  | error e => simp
  | ok b => simp [map_ok_iff, eq_comm (a := bs)]

theorem checkAll_cons_error_iff :
    checkAll check before (x :: xs) = .error e ↔
      check before x = .error e ∨
        (∃ b, check before x = .ok b) ∧ checkAll check (before ++ [x]) xs = .error e := by
  rw [checkAll]
  cases check before x with
  | error e => simp
  | ok b => simp [map_error_iff]

/-- **A loop succeeds if no element is refused behind those before it.** -/
theorem checkAll_ok_iff :
    (∃ bs, checkAll check before xs = .ok bs) ↔
      ∀ earlier x later, xs = earlier ++ x :: later →
        ∃ b, check (before ++ earlier) x = .ok b := by
  induction xs generalizing before with
  | nil => simp [checkAll]
  | cons x xs ih =>
    have htail := @ih (before ++ [x])
    simp only [List.append_assoc, List.singleton_append] at htail
    rw [forall_split_cons, List.append_nil, ← htail]
    simp only [checkAll_cons_ok_iff]
    constructor
    · rintro ⟨_, b, bs', hb, hbs', -⟩
      exact ⟨⟨b, hb⟩, bs', hbs'⟩
    · rintro ⟨⟨b, hb⟩, bs', hbs'⟩
      exact ⟨_, b, bs', hb, hbs', rfl⟩

/-- **A loop fails with the error of the first element that is refused.** -/
theorem checkAll_error_iff :
    checkAll check before xs = .error e ↔
      ∃ earlier x later, xs = earlier ++ x :: later ∧
        (∃ bs, checkAll check before earlier = .ok bs) ∧
        check (before ++ earlier) x = .error e := by
  induction xs generalizing before with
  | nil => simp [checkAll]
  | cons x xs ih =>
    rw [checkAll_cons_error_iff, ih]
    constructor
    · rintro (hx | ⟨⟨b, hb⟩, earlier, y, later, rfl, ⟨bs, hbs⟩, hy⟩)
      · exact ⟨[], x, xs, rfl, ⟨[], rfl⟩, by rw [List.append_nil, hx]⟩
      · refine ⟨x :: earlier, y, later, rfl, ⟨b :: bs, ?_⟩, ?_⟩
        · exact checkAll_cons_ok_iff.mpr ⟨b, bs, hb, hbs, rfl⟩
        · rw [← hy, List.append_assoc, List.singleton_append]
    · rintro ⟨earlier, y, later, heq, ⟨bs, hbs⟩, hy⟩
      cases earlier with
      | nil =>
        obtain ⟨rfl, -⟩ := List.cons.inj heq
        rw [List.append_nil] at hy
        exact Or.inl hy
      | cons z earlier =>
        obtain ⟨rfl, rfl⟩ := List.cons.inj heq
        obtain ⟨b, bs', hb, hbs', -⟩ := checkAll_cons_ok_iff.mp hbs
        refine Or.inr ⟨⟨b, hb⟩, earlier, y, later, rfl, ⟨bs', hbs'⟩, ?_⟩
        rw [← hy, List.append_assoc, List.singleton_append]

theorem checkAll_forall₂ (h : checkAll check before xs = .ok bs) :
    List.Forall₂ (fun x b => ∃ earlier, check earlier x = .ok b) xs bs := by
  induction xs generalizing before bs with
  | nil =>
    cases h
    exact List.Forall₂.nil
  | cons x xs ih =>
    obtain ⟨b, bs', hb, hbs', rfl⟩ := checkAll_cons_ok_iff.mp h
    exact List.Forall₂.cons ⟨before, hb⟩ (ih hbs')

end SchemaTree
