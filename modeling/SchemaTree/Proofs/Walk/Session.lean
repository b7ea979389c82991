import SchemaTree.Compiler.Walk
import SchemaTree.Proofs.Stateful

/-!
# What a walk does to its session

A session changes in five ways only: a record is noted, a type is entered, called or
left, a finished schema is kept, a type is deferred.  This file says what each of them does
to the path, the cache and the pending types, so that no later proof has to open
them.

* `Session.Knows`: the types on the path or in the cache.  A walk never forgets one.
* `Walk.building_eq`: what a walk has done where it builds a type.
* `Walk.introspect_ok`, `Walk.introspect_error`: what it has done where it introspects one.
-/

namespace SchemaTree

namespace Session

/-- The introspection of a type, as the trace shows it. -/
def called (s : Session) (t : TypeId) : Session :=
  { s with trace := { s.trace with calls := s.trace.calls ++ [t] } }

/-- A type that is being built or finished. -/
def Knows (s : Session) (t : TypeId) : Prop := t ∈ s.path ∨ (s.cached? t).isSome

/-- The types that were deferred. -/
def pendingTypes (s : Session) : List TypeId := s.pending.map (·.1)

variable (s : Session) (t u : TypeId)

@[simp] theorem path_note (records : Log) : (s.note records).path = s.path := rfl

@[simp] theorem path_called : (s.called t).path = s.path := rfl

@[simp] theorem path_enter : (s.enter t).path = t :: s.path := rfl

@[simp] theorem path_leave : s.leave.path = s.path.tail := rfl

@[simp] theorem path_keep (schema : Schema) : (s.keep t schema).path = s.path := rfl

@[simp] theorem path_defer (depth : Nat) : (s.defer t depth).path = s.path := by
  unfold defer
  split <;> rfl

@[simp] theorem cache_note (records : Log) : (s.note records).cache = s.cache := rfl

@[simp] theorem cache_called : (s.called t).cache = s.cache := rfl

@[simp] theorem cache_enter : (s.enter t).cache = s.cache := rfl

@[simp] theorem cache_leave : s.leave.cache = s.cache := rfl

@[simp] theorem cache_keep (schema : Schema) :
    (s.keep t schema).cache = (t, schema) :: s.cache := rfl

@[simp] theorem cache_defer (depth : Nat) : (s.defer t depth).cache = s.cache := by
  unfold defer
  split <;> rfl

@[simp] theorem cached?_note (records : Log) : (s.note records).cached? u = s.cached? u := rfl

@[simp] theorem cached?_called : (s.called t).cached? u = s.cached? u := rfl

@[simp] theorem cached?_enter : (s.enter t).cached? u = s.cached? u := rfl

@[simp] theorem cached?_leave : s.leave.cached? u = s.cached? u := rfl

@[simp] theorem cached?_defer (depth : Nat) : (s.defer t depth).cached? u = s.cached? u := by
  rw [cached?, cache_defer, cached?]

@[simp] theorem cached?_keep_self (schema : Schema) :
    (s.keep t schema).cached? t = some schema := by
  simp [cached?]

theorem cached?_keep_of_ne {s : Session} {u t : TypeId} (h : u ≠ t) (schema : Schema) :
    (s.keep t schema).cached? u = s.cached? u := by
  rw [cached?, cache_keep, List.lookup_cons, beq_eq_false_iff_ne.mpr h, cached?]

@[simp] theorem pending_note (records : Log) : (s.note records).pending = s.pending := rfl

@[simp] theorem pending_called : (s.called t).pending = s.pending := rfl

@[simp] theorem pending_enter : (s.enter t).pending = s.pending := rfl

@[simp] theorem pending_leave : s.leave.pending = s.pending := rfl

@[simp] theorem pending_keep (schema : Schema) : (s.keep t schema).pending = s.pending := rfl

/-- **Deferring a type makes it pending and leaves the others as they are.** -/
theorem mem_pendingTypes_defer (depth : Nat) :
    u ∈ (s.defer t depth).pendingTypes ↔ u ∈ s.pendingTypes ∨ u = t := by
  unfold defer pendingTypes
  split
  · rename_i h
    simp only [List.any_eq_true, decide_eq_true_eq] at h
    obtain ⟨e, he, rfl⟩ := h
    constructor
    · exact Or.inl
    · rintro (h | rfl)
      · exact h
      · exact List.mem_map.mpr ⟨e, he, rfl⟩
  · simp

end Session

/-! ## Building and introspecting -/

namespace Walk

variable {α : Type} {s s' : Session}

theorem building_eq {t : TypeId} {body : Walk α} {r : Except CompileError α}
    (h : (building t body).run s = (r, s')) :
    ∃ s₁, body.run (s.enter t) = (r, s₁) ∧ s' = s₁.leave := by
  have hb : (building t body).run s = ((body.run (s.enter t)).1, (body.run (s.enter t)).2.leave) :=
    rfl
  rw [hb, Prod.mk.injEq] at h
  exact ⟨(body.run (s.enter t)).2, Prod.ext h.1 rfl, h.2.symm⟩

end Walk

/-- **Introspection yields the declared fields of a type or its reason to fail, and shows in the
trace either way.** -/
theorem Compiler.introspect_outcome (c : Compiler) (t : TypeId) (trace : Trace) :
    (c.introspect t).outcome trace =
      ((match c.source.fields t with
        | .ok fields => .ok fields
        | .error reason => .error (.introspection t reason)),
        { trace with calls := trace.calls ++ [t] }) := by
  cases h : c.source.fields t <;> simp only [introspect, h] <;> rfl

theorem Walk.run_traced {α : Type} (m : Traced α) (s : Session) :
    (Walk.traced m).run s =
      ((m.outcome s.trace).1, { s with trace := (m.outcome s.trace).2 }) := by
  unfold Walk.traced
  rw [Stateful.run_get_bind]
  cases hm : m.outcome s.trace with
  | mk result trace =>
    cases result with
    | ok a => rfl
    | error e => rfl

theorem Walk.introspect_ok {c : Compiler} {t : TypeId} {s s' : Session} {ds : List Descriptor}
    (h : (Walk.traced (c.introspect t)).run s = (.ok ds, s')) :
    c.source.fields t = .ok ds ∧ s' = s.called t := by
  rw [Walk.run_traced, Compiler.introspect_outcome] at h
  cases hf : c.source.fields t with
  | ok fields =>
    rw [hf] at h
    cases h
    exact ⟨rfl, rfl⟩
  | error reason =>
    rw [hf] at h
    cases h

theorem Walk.introspect_error {c : Compiler} {t : TypeId} {s s' : Session} {e : CompileError}
    (h : (Walk.traced (c.introspect t)).run s = (.error e, s')) :
    ∃ reason, c.source.fields t = .error reason ∧ e = .introspection t reason ∧
      s' = s.called t := by
  rw [Walk.run_traced, Compiler.introspect_outcome] at h
  cases hf : c.source.fields t with
  | ok fields =>
    rw [hf] at h
    cases h
  | error reason =>
    rw [hf] at h
    cases h
    exact ⟨reason, rfl, rfl, rfl⟩

end SchemaTree
