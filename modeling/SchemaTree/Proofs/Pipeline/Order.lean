import Mathlib.Algebra.Order.Group.Int
import Mathlib.Data.List.TakeWhile
import SchemaTree.Pipeline

/-!
# The order of a pipeline

A handler that is registered goes behind all of equal or higher priority.  So the entries of a
pipeline never rise in priority (`Falling`), and those of one priority stand in the order in which
they were registered.  There is one such order only (`eq_of_falling`), the stable one.

* `entries_registerAll`: **a pipeline holds all that was registered, in stable order.**
* `register_eq_insertIdx`: **halving finds the place where a handler goes**, since it looks at
  entries that do not rise.
-/

namespace SchemaTree.Pipeline

/-! ## Stable order -/

/-- Registrations as entries. -/
def entriesOf (handlers : List (Handler × Int)) : List Registration :=
  handlers.map fun (h, priority) => ⟨priority, h⟩

/-- Whether an entry may stand before another. -/
def goesBefore (a b : Registration) : Bool := decide (b.priority ≤ a.priority)

/-- Entries in stable order of falling priority. -/
def stableOrder (es : List Registration) : List Registration := es.mergeSort goesBefore

/-- Priorities do not rise. -/
def Falling (es : List Registration) : Prop := es.Pairwise fun a b => b.priority ≤ a.priority

/-- The entries of one priority. -/
def level (k : Int) (es : List Registration) : List Registration := es.filter (·.priority = k)

theorem level_append (k : Int) (es fs : List Registration) :
    level k (es ++ fs) = level k es ++ level k fs := List.filter_append es fs

theorem level_cons (k : Int) (e : Registration) (es : List Registration) :
    level k (e :: es) = if e.priority = k then e :: level k es else level k es := by
  rw [level, List.filter_cons]
  simp [level]

theorem mem_level {k : Int} {e : Registration} {es : List Registration} :
    e ∈ level k es ↔ e ∈ es ∧ e.priority = k := by
  simp [level]

theorem Falling.le_head {e f : Registration} {es : List Registration} (h : Falling (e :: es))
    (hf : f ∈ e :: es) : f.priority ≤ e.priority := by
  rcases List.mem_cons.mp hf with rfl | hf
  · exact le_refl _
  · exact List.rel_of_pairwise_cons h hf

theorem mem_iff_of_level {es fs : List Registration} (h : ∀ k, level k es = level k fs)
    (e : Registration) : e ∈ es ↔ e ∈ fs := by
  have hlevel : e ∈ level e.priority es ↔ e ∈ level e.priority fs := by rw [h]
  simpa [mem_level] using hlevel

/-- **Entries that do not rise are told by their levels.** -/
theorem eq_of_falling {es fs : List Registration} (hes : Falling es) (hfs : Falling fs)
    (h : ∀ k, level k es = level k fs) : es = fs := by
  induction es generalizing fs with
  | nil =>
    cases fs with
    | nil => rfl
    | cons f fs => exact absurd ((mem_iff_of_level h f).mpr List.mem_cons_self) List.not_mem_nil
  | cons e es ih =>
    cases fs with
    | nil => exact absurd ((mem_iff_of_level h e).mp List.mem_cons_self) List.not_mem_nil
    | cons f fs =>
      -- each head is in the other list, so neither has the higher priority
      have hpriority : e.priority = f.priority := le_antisymm
        (hfs.le_head ((mem_iff_of_level h e).mp List.mem_cons_self))
        (hes.le_head ((mem_iff_of_level h f).mpr List.mem_cons_self))
      have hhead := h f.priority
      rw [level_cons, level_cons, if_pos hpriority, if_pos rfl] at hhead
      obtain ⟨rfl, -⟩ := List.cons.inj hhead
      have htails : ∀ k, level k es = level k fs := by
        intro k
        have hk := h k
        rw [level_cons, level_cons] at hk
        split at hk
        · exact (List.cons.inj hk).2
        · exact hk
      rw [ih (List.Pairwise.of_cons hes) (List.Pairwise.of_cons hfs) htails]

theorem goesBefore_trans (a b c : Registration) (hab : goesBefore a b = true)
    (hbc : goesBefore b c = true) : goesBefore a c = true := by
  simp only [goesBefore, decide_eq_true_eq] at hab hbc ⊢
  omega

theorem goesBefore_total (a b : Registration) : (goesBefore a b || goesBefore b a) = true := by
  simp only [goesBefore, Bool.or_eq_true, decide_eq_true_eq]
  omega

theorem falling_stableOrder (es : List Registration) : Falling (stableOrder es) :=
  (List.pairwise_mergeSort goesBefore_trans goesBefore_total es).imp of_decide_eq_true

theorem level_stableOrder (k : Int) (es : List Registration) :
    level k (stableOrder es) = level k es := by
  have hperm : (level k (stableOrder es)).Perm (level k es) := (List.mergeSort_perm _ _).filter _
  have hequal : (level k es).Pairwise fun a b => goesBefore a b = true := by
    refine List.Pairwise.imp_of_mem ?_ (List.pairwise_of_forall fun _ _ => trivial)
    intro a b ha hb _
    exact decide_eq_true ((mem_level.mp hb).2.trans (mem_level.mp ha).2.symm).le
  have hsublist : (level k es).Sublist (stableOrder es) :=
    List.sublist_mergeSort goesBefore_trans goesBefore_total hequal List.filter_sublist
  have hlevel : level k (level k es) = level k es :=
    List.filter_eq_self.mpr fun e he => decide_eq_true (mem_level.mp he).2
  have hsublevel : (level k es).Sublist (level k (stableOrder es)) :=
    hlevel ▸ hsublist.filter _
  exact (hsublevel.eq_of_length hperm.length_eq.symm).symm

/-! ## Registering -/

variable {p : Pipeline} (h : Handler) (k : Int)

theorem le_of_mem_takeWhile {es : List Registration} {e : Registration}
    (he : e ∈ es.takeWhile (k ≤ ·.priority)) : k ≤ e.priority :=
  of_decide_eq_true (p := k ≤ e.priority)
    (List.mem_takeWhile_imp (p := fun f : Registration => decide (k ≤ f.priority)) he)

theorem Falling.lt_of_mem_dropWhile {es : List Registration} (hes : Falling es) {e : Registration}
    (he : e ∈ es.dropWhile (k ≤ ·.priority)) : e.priority < k := by
  have hfalling : Falling (es.dropWhile (k ≤ ·.priority)) :=
    hes.sublist (List.dropWhile_sublist _)
  cases hdrop : es.dropWhile (k ≤ ·.priority) with
  | nil =>
    rw [hdrop] at he
    exact absurd he List.not_mem_nil
  | cons f fs =>
    have hfirst := List.head?_dropWhile_not (k ≤ ·.priority) es
    rw [hdrop] at hfirst he hfalling
    have hlt : f.priority < k := not_le.mp (of_decide_eq_false (p := k ≤ f.priority) hfirst)
    exact (hfalling.le_head he).trans_lt hlt

theorem falling_register (hp : Falling p.entries) : Falling (p.register h k).entries := by
  have hbefore : ∀ e ∈ p.entries.takeWhile (k ≤ ·.priority), k ≤ e.priority :=
    fun e he => le_of_mem_takeWhile k he
  have hbehind : ∀ e ∈ p.entries.dropWhile (k ≤ ·.priority), e.priority < k :=
    fun e he => hp.lt_of_mem_dropWhile k he
  refine List.pairwise_append.mpr ⟨hp.sublist (List.takeWhile_sublist _),
    List.pairwise_cons.mpr ⟨fun e he => (hbehind e he).le, hp.sublist (List.dropWhile_sublist _)⟩, ?_⟩
  intro a ha b hb
  rcases List.mem_cons.mp hb with rfl | hb
  · exact hbefore a ha
  · exact (hbehind b hb).le.trans (hbefore a ha)

theorem level_register (hp : Falling p.entries) (j : Int) :
    level j (p.register h k).entries = level j p.entries ++ level j [⟨k, h⟩] := by
  have hsplit : level j p.entries = level j (p.entries.takeWhile (k ≤ ·.priority)) ++
      level j (p.entries.dropWhile (k ≤ ·.priority)) := by
    rw [← level_append, List.takeWhile_append_dropWhile]
  rw [register, level_append, hsplit, level_cons, level_cons]
  by_cases hj : k = j
  · subst hj
    have hnone : level k (p.entries.dropWhile (k ≤ ·.priority)) = [] :=
      List.filter_eq_nil_iff.mpr fun e he heq =>
        (hp.lt_of_mem_dropWhile k he).ne (of_decide_eq_true heq)
    rw [hnone, if_pos rfl, if_pos rfl, List.append_nil]
    rfl
  · simp [hj, level]

theorem register_stable {registered : List Registration}
    (hp : p.entries = stableOrder registered) :
    (p.register h k).entries = stableOrder (registered ++ [⟨k, h⟩]) := by
  have hfalling : Falling p.entries := hp ▸ falling_stableOrder registered
  refine eq_of_falling (falling_register h k hfalling) (falling_stableOrder _) fun j => ?_
  rw [level_register h k hfalling, hp, level_stableOrder, level_stableOrder, level_append]

theorem registerAll_append (handlers more : List (Handler × Int)) :
    p.registerAll (handlers ++ more) = (p.registerAll handlers).registerAll more :=
  List.foldl_append

theorem registerAll_stable {registered : List Registration} (handlers : List (Handler × Int))
    (hp : p.entries = stableOrder registered) :
    (p.registerAll handlers).entries = stableOrder (registered ++ entriesOf handlers) := by
  induction handlers generalizing p registered with
  | nil =>
    rw [entriesOf, List.map_nil, List.append_nil]
    exact hp
  | cons e handlers ih =>
    have hnext := ih (register_stable e.1 e.2 hp)
    rw [List.append_assoc] at hnext
    exact hnext

/-- **A pipeline holds all that was registered, in stable order.** -/
theorem entries_registerAll (handlers : List (Handler × Int)) :
    (({} : Pipeline).registerAll handlers).entries = stableOrder (entriesOf handlers) := by
  have hempty : ({} : Pipeline).entries = stableOrder [] := List.mergeSort_nil.symm
  exact registerAll_stable handlers hempty

/-! ## The place of a handler -/

variable {α : Type}

/-- Finds the place in a list where a test begins to fail, by halving the part from `base` on that
has `size` elements. -/
def bisect (test : α → Bool) (xs : List α) (base size : Nat) : Nat :=
  if size = 0 then base
  else
    match xs[base + size / 2]? with
    | some x =>
      if test x then bisect test xs (base + size / 2 + 1) (size - size / 2 - 1)
      else bisect test xs base (size / 2)
    | none => base
termination_by size

theorem bisect_eq {test : α → Bool} {before behind : List α} (hbefore : ∀ x ∈ before, test x = true)
    (hbehind : ∀ x ∈ behind, test x = false) (base size : Nat) (hbase : base ≤ before.length)
    (hsize : before.length ≤ base + size) (hend : base + size ≤ (before ++ behind).length) :
    bisect test (before ++ behind) base size = before.length := by
  -- The place that is sought stays between the ends of what is left to be halved.
  induction base, size using bisect.induct test (before ++ behind) with
  | case1 base =>
    rw [bisect, if_pos rfl]
    omega
  | case2 base size hpos x hx htest ih =>
    have hmiddle : base + size / 2 < before.length := by
      by_contra hge
      rw [List.getElem?_append_right (not_lt.mp hge)] at hx
      rw [hbehind x (List.mem_of_getElem? hx)] at htest
      cases htest
    rw [bisect, if_neg hpos, hx]
    simp only [htest, if_true]
    exact ih (by omega) (by omega) (by omega)
  | case3 base size hpos x hx htest ih =>
    have hmiddle : before.length ≤ base + size / 2 := by
      by_contra hlt
      rw [List.getElem?_append_left (not_le.mp hlt)] at hx
      exact htest (hbefore x (List.mem_of_getElem? hx))
    rw [bisect, if_neg hpos, hx]
    simp only [htest]
    exact ih hbase hmiddle (by omega)
  | case4 base size hpos hx =>
    have hout := List.getElem?_eq_none_iff.mp hx
    omega

theorem insertIdx_length_append (xs ys : List α) (a : α) :
    (xs ++ ys).insertIdx xs.length a = xs ++ a :: ys := by
  induction xs with
  | nil => rfl
  | cons x xs ih => exact congrArg (x :: ·) ih

/-- The place of a priority among entries. -/
def place (k : Int) (es : List Registration) : Nat :=
  bisect (fun e => decide (k ≤ e.priority)) es 0 es.length

/-- **Halving finds the place where a handler goes.** -/
theorem register_eq_insertIdx (hp : Falling p.entries) :
    p.register h k = ⟨p.entries.insertIdx (place k p.entries) ⟨k, h⟩⟩ := by
  have hsplit : p.entries.takeWhile (k ≤ ·.priority) ++ p.entries.dropWhile (k ≤ ·.priority) =
      p.entries := List.takeWhile_append_dropWhile
  have hplace : place k p.entries = (p.entries.takeWhile (k ≤ ·.priority)).length := by
    have hfound := bisect_eq
      (fun e (he : e ∈ p.entries.takeWhile (k ≤ ·.priority)) =>
        decide_eq_true (le_of_mem_takeWhile k he))
      (fun e he => decide_eq_false (not_le.mpr (hp.lt_of_mem_dropWhile k he)))
      0 p.entries.length (Nat.zero_le _)
      (by rw [Nat.zero_add]; exact (List.takeWhile_sublist _).length_le)
      (by rw [hsplit, Nat.zero_add])
    rw [hsplit] at hfound
    exact hfound
  rw [register, hplace, ← insertIdx_length_append, hsplit]

end SchemaTree.Pipeline
