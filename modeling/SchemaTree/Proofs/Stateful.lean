import Mathlib.Order.Defs.Unbundled

/-!
# Programs whose state survives a failure

Walks, traced computations and the loading of catalogs are programs of one kind: they
carry a state, and leave one behind also when they fail.  A run of such a program is taken apart
step by step: **a program of two parts succeeds only if both do** (`Stateful.bind_ok`), and it
fails in the first part or, after that, in the second (`Stateful.bind_error`).  The other
lemmas say what single steps do.

**What every part of a program keeps, the program keeps**, whether or not it fails
(`Stateful.Keeps`).
-/

namespace SchemaTree.Stateful

variable {ε σ α β : Type} {s s' : σ}

theorem ext {m m' : ExceptT ε (StateM σ) α} (h : ∀ s, m.run s = m'.run s) : m = m' := funext h

theorem run_bind (m : ExceptT ε (StateM σ) α) (f : α → ExceptT ε (StateM σ) β) (s : σ) :
    (m >>= f).run s = match m.run s with
      | (.ok a, s') => (f a).run s'
      | (.error e, s') => (.error e, s') := by
  change ExceptT.bindCont f (m s).1 (m s).2 = match m s with
      | (.ok a, s') => (f a).run s'
      | (.error e, s') => (.error e, s')
  obtain ⟨r, s'⟩ := m s
  cases r <;> rfl

theorem run_tryCatch (m : ExceptT ε (StateM σ) α) (h : ε → ExceptT ε (StateM σ) α) (s : σ) :
    (tryCatch m h).run s = match m.run s with
      | (.ok a, s') => (.ok a, s')
      | (.error e, s') => (h e).run s' := by
  change (ExceptT.tryCatch m h) s = _
  simp only [ExceptT.tryCatch, ExceptT.mk, bind, StateT.bind, ExceptT.run]
  obtain ⟨r, s'⟩ := m s
  cases r <;> rfl

theorem run_get_bind (f : σ → ExceptT ε (StateM σ) β) (s : σ) :
    (get >>= f).run s = (f s).run s := rfl

theorem run_modify_bind (f : σ → σ) (g : PUnit → ExceptT ε (StateM σ) β) (s : σ) :
    (modify f >>= g).run s = (g ⟨⟩).run (f s) := rfl

theorem run_lift_bind (x : StateM σ α) (f : α → ExceptT ε (StateM σ) β) (s : σ) :
    ((liftM x : ExceptT ε (StateM σ) α) >>= f).run s = (f (x.run s).1).run (x.run s).2 := rfl

theorem bind_ok {m : ExceptT ε (StateM σ) α} {f : α → ExceptT ε (StateM σ) β} {b : β}
    (h : (m >>= f).run s = (.ok b, s')) :
    ∃ a s₁, m.run s = (.ok a, s₁) ∧ (f a).run s₁ = (.ok b, s') := by
  rw [run_bind] at h
  split at h
  · exact ⟨_, _, ‹_›, h⟩
  · cases h

theorem bind_error {m : ExceptT ε (StateM σ) α} {f : α → ExceptT ε (StateM σ) β} {e : ε}
    (h : (m >>= f).run s = (.error e, s')) :
    m.run s = (.error e, s') ∨ ∃ a s₁, m.run s = (.ok a, s₁) ∧ (f a).run s₁ = (.error e, s') := by
  rw [run_bind] at h
  cases hm : m.run s with
  | mk r s₁ =>
    rw [hm] at h
    cases r with
    | ok a => exact Or.inr ⟨a, s₁, rfl, h⟩
    | error e' =>
      cases h
      exact Or.inl rfl

theorem pure_ok {a b : α} (h : (pure a : ExceptT ε (StateM σ) α).run s = (.ok b, s')) :
    b = a ∧ s' = s := by
  cases h
  exact ⟨rfl, rfl⟩

theorem set_ok {t : σ} {u : PUnit}
    (h : (set t : ExceptT ε (StateM σ) PUnit).run s = (.ok u, s')) : s' = t := by
  cases h
  rfl

theorem modify_ok {f : σ → σ} {u : PUnit}
    (h : (modify f : ExceptT ε (StateM σ) PUnit).run s = (.ok u, s')) : s' = f s := by
  cases h
  rfl

theorem pure_error {a : α} {e : ε}
    (h : (pure a : ExceptT ε (StateM σ) α).run s = (.error e, s')) : False := by
  cases h

theorem set_error {t : σ} {e : ε}
    (h : (set t : ExceptT ε (StateM σ) PUnit).run s = (.error e, s')) : False := by
  cases h

theorem modify_error {f : σ → σ} {e : ε}
    (h : (modify f : ExceptT ε (StateM σ) PUnit).run s = (.error e, s')) : False := by
  cases h

theorem throw_ok {e : ε} {a : α}
    (h : (throw e : ExceptT ε (StateM σ) α).run s = (.ok a, s')) : False := by
  cases h

theorem throw_error {e e' : ε}
    (h : (throw e : ExceptT ε (StateM σ) α).run s = (.error e', s')) : e' = e ∧ s' = s := by
  cases h
  exact ⟨rfl, rfl⟩

/-! ## What programs keep -/

/-- A program keeps a relation if it holds between the states before and after each of its runs,
also if the run fails. -/
def Keeps (R : σ → σ → Prop) (m : ExceptT ε (StateM σ) α) : Prop := ∀ s, R s (m.run s).2

variable {R : σ → σ → Prop} [IsPreorder σ R]

theorem related_second {m : ExceptT ε (StateM σ) α} {f : α → ExceptT ε (StateM σ) β}
    (hf : ∀ a s₁, m.run s = (.ok a, s₁) → R s₁ ((f a).run s₁).2) :
    R (m.run s).2 ((m >>= f).run s).2 := by
  rw [run_bind]
  cases hrun : m.run s with
  | mk r s₁ =>
    cases r with
    | ok a => exact hf a s₁ hrun
    | error e => exact refl_of R s₁

theorem related_bind {m : ExceptT ε (StateM σ) α} {f : α → ExceptT ε (StateM σ) β}
    (hm : R s (m.run s).2) (hf : ∀ a s₁, m.run s = (.ok a, s₁) → R s₁ ((f a).run s₁).2) :
    R s ((m >>= f).run s).2 := trans_of R hm (related_second hf)

namespace Keeps

theorem pure (a : α) : Keeps R (pure a : ExceptT ε (StateM σ) α) := fun s => refl_of R s

theorem throw (e : ε) : Keeps R (throw e : ExceptT ε (StateM σ) α) := fun s => refl_of R s

theorem get : Keeps R (get : ExceptT ε (StateM σ) σ) := fun s => refl_of R s

theorem bind {m : ExceptT ε (StateM σ) α} {f : α → ExceptT ε (StateM σ) β} (hm : Keeps R m)
    (hf : ∀ a, Keeps R (f a)) : Keeps R (m >>= f) :=
  fun s => related_bind (hm s) fun a s₁ _ => hf a s₁

theorem tryCatch {m : ExceptT ε (StateM σ) α} {h : ε → ExceptT ε (StateM σ) α} (hm : Keeps R m)
    (hh : ∀ e, Keeps R (h e)) : Keeps R (tryCatch m h) := by
  intro s
  have hfirst := hm s
  rw [run_tryCatch]
  cases hrun : m.run s with
  | mk r s₁ =>
    rw [hrun] at hfirst
    cases r with
    | ok a => exact hfirst
    | error e => exact trans_of R hfirst (hh e s₁)

theorem flatMapM {f : α → ExceptT ε (StateM σ) (List β)} (hf : ∀ a, Keeps R (f a)) (as : List α) :
    Keeps R (as.flatMapM f) := by
  induction as with
  | nil => exact pure []
  | cons a as ih =>
    rw [List.flatMapM_cons]
    exact (hf a).bind fun bs => ih.bind fun cs => pure (bs ++ cs)

end Keeps

end SchemaTree.Stateful
