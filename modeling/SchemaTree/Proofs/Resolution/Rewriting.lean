import SchemaTree.Proofs.Resolution.Resolves
import SchemaTree.Proofs.Schema.Replacing

/-!
# Resolving as replacing

Resolving goes through a tree and makes flat schemas on the way.  Which ones it makes does not
depend on those that it made before, and it never looks into them, so **all effects can come
first**: the flat schemas of the types that deferred fields refer to are made in the order of the
tree, and then all deferred links are replaced at once (`resolveSchema_eq`).

The way through a tree that passes over no schema (`Compiler.rewriteSchema`) is the same program:
nothing happens in a schema without deferred links.

* `flatAll_outcome`: making flat schemas fails at the first type that cannot be introspected.
* `resolveSchema_outcome`: what a resolution returns.
* `resolveSchema_ok_iff`, `resolveSchema_error_iff`: when it succeeds, and how it fails.
* `resolve_of_none_meant`: **a tree in which no deferred field is meant is left alone.**
-/

namespace SchemaTree

namespace Compiler

variable {c : Compiler} {only : Option TypeId}

/-! ## What is made, and where it is put -/

/-- The types that deferred fields refer to, as far as these are meant. -/
def meantAmong (only : Option TypeId) (es : List Deferral) : List TypeId :=
  es.filterMap fun e => e.1.filter (isMeant only)

/-- The flat schema of a type, if it can be introspected. -/
def flat? (c : Compiler) (t : TypeId) : Option Schema := ((c.flat t).outcome {}).1.toOption

theorem flat?_eq_some_iff {t : TypeId} {x : Schema} :
    c.flat? t = some x ↔ ∃ ds, c.source.fields t = .ok ds ∧ x = c.flatSchema t ds := by
  rw [flat?, flat_outcome]
  cases c.source.fields t <;> simp [Except.toOption, eq_comm]

/-- The link to a schema, or a deferred one if there is none. -/
def linkTo (reference : String) : Option Schema → Link
  | some x => .nested x
  | none => .deferred reference

/-- The link that resolving puts in the place of a deferred one: the flat schema of the type that
the field refers to.  A field that is not meant stays deferred. -/
def attach (c : Compiler) (only : Option TypeId) (p : Property) (reference : String) : Link :=
  linkTo reference ((p.object.filter (isMeant only)).bind c.flat?)

theorem meantAmong_append (es es' : List Deferral) :
    meantAmong only (es ++ es') = meantAmong only es ++ meantAmong only es' :=
  List.filterMap_append

theorem meantAmong_singleton (target : Option TypeId) (depth : Nat) :
    meantAmong only [(target, depth)] = (target.filter (isMeant only)).toList := by
  rw [meantAmong, List.filterMap_cons, List.filterMap_nil]
  cases target.filter (isMeant only) <;> rfl

/-- Makes the flat schemas of types. -/
def flatAll (c : Compiler) : List TypeId → Traced Unit
  | [] => return ()
  | t :: ts => do
    let _ ← c.flat t
    c.flatAll ts

theorem flatAll_append (ts us : List TypeId) :
    c.flatAll (ts ++ us) = c.flatAll ts >>= fun _ => c.flatAll us := by
  induction ts with
  | nil => rfl
  | cons t ts ih => simp only [List.cons_append, flatAll, ih, bind_assoc]

/-- **The flat schema of a type is the same whenever it is made.** -/
theorem flat_bind {α : Type} (t : TypeId) (f : Option Schema → Traced α) :
    (c.flat t >>= fun x => f (some x)) = c.flat t >>= fun _ => f (c.flat? t) := by
  refine Stateful.ext fun trace => ?_
  rw [Stateful.run_bind, Stateful.run_bind]
  cases hx : (c.flat t).run trace with
  | mk result trace' =>
    cases result with
    | error e => rfl
    | ok x =>
      rw [flat?_eq_some_iff.mpr (flat_ok hx)]

/-! ## The way through a whole tree -/

mutual

/-- Resolves the deferred links of a schema, and goes through schemas without any as well. -/
def rewriteSchema (c : Compiler) (only : Option TypeId) : Schema → Traced Schema
  | .mk h fields => return .mk h (← c.rewriteFields only fields)

def rewriteFields (c : Compiler) (only : Option TypeId) : List Field → Traced (List Field)
  | [] => return []
  | f :: fs => do
    let f ← c.rewriteField only f
    return f :: (← c.rewriteFields only fs)

def rewriteField (c : Compiler) (only : Option TypeId) : Field → Traced Field
  | .mk p l => return .mk p (← c.rewriteLink only p l)

def rewriteLink (c : Compiler) (only : Option TypeId) (p : Property) : Link → Traced Link
  | .none => return .none
  | .nested s => return .nested (← c.rewriteSchema only s)
  | .deferred reference => c.resolveLink only p (.deferred reference)

end

theorem resolveLink_of_deferred (p : Property) (r : String) :
    c.resolveLink only p (.deferred r) =
      match p.object.filter (isMeant only) with
      | none => pure (.deferred r)
      | some t => c.flat t >>= fun x => pure (linkTo r (some x)) := by
  rw [resolveLink]
  cases p.object with
  | none => rfl
  | some t =>
    simp only [Option.filter_some]
    split <;> rfl

theorem resolveLink_deferred (p : Property) (r : String) (depth : Nat) :
    c.resolveLink only p (.deferred r) = do
      c.flatAll (meantAmong only ((Link.deferred r).deferrals p.object depth))
      return c.attach only p r := by
  rw [resolveLink_of_deferred, attach, Link.deferrals, meantAmong_singleton]
  cases p.object.filter (isMeant only) with
  | none => rfl
  | some t =>
    simp only [Option.toList_some, flatAll, bind_assoc, pure_bind, Option.bind_some]
    exact flat_bind t fun x? => pure (linkTo r x?)

mutual

/-- **Going through a tree makes the flat schemas in the order of the deferred fields, and replaces
these.** -/
theorem rewriteSchema_eq : ∀ (s : Schema) (depth : Nat),
    c.rewriteSchema only s = do
      c.flatAll (meantAmong only (s.deferrals depth))
      return s.replaceDeferred (c.attach only)
  | .mk h fields, depth => by
    rw [rewriteSchema, rewriteFields_eq fields depth, Schema.deferrals, Schema.replaceDeferred]
    simp only [bind_assoc, pure_bind]

theorem rewriteFields_eq : ∀ (fs : List Field) (depth : Nat),
    c.rewriteFields only fs = do
      c.flatAll (meantAmong only (Field.deferralsAll depth fs))
      return Field.replaceDeferredAll (c.attach only) fs
  | [], _ => rfl
  | f :: fs, depth => by
    rw [rewriteFields, rewriteField_eq f depth, rewriteFields_eq fs depth, Field.deferralsAll,
      Field.replaceDeferredAll, meantAmong_append, flatAll_append]
    simp only [bind_assoc, pure_bind]

theorem rewriteField_eq : ∀ (f : Field) (depth : Nat),
    c.rewriteField only f = do
      c.flatAll (meantAmong only (f.deferrals depth))
      return f.replaceDeferred (c.attach only)
  | .mk p l, depth => by
    rw [rewriteField, rewriteLink_eq l p depth, Field.deferrals, Field.replaceDeferred]
    simp only [bind_assoc, pure_bind]

theorem rewriteLink_eq : ∀ (l : Link) (p : Property) (depth : Nat),
    c.rewriteLink only p l = do
      c.flatAll (meantAmong only (l.deferrals p.object depth))
      return l.replaceDeferred (c.attach only) p
  | .none, _, _ => rfl
  | .nested s, _, depth => by
    rw [rewriteLink, rewriteSchema_eq s (depth + 1), Link.deferrals, Link.replaceDeferred]
    simp only [bind_assoc, pure_bind]
  | .deferred r, p, depth => resolveLink_deferred p r depth

end

theorem rewriteSchema_of_not_hasDeferred {s : Schema} (h : s.hasDeferred = false) :
    c.rewriteSchema only s = pure s := by
  rw [rewriteSchema_eq s 0, Schema.deferrals_eq_nil h 0, Schema.replaceDeferred_of_not_hasDeferred h]
  rfl

mutual

/-- **Passing over schemas without deferred links changes nothing**, neither the result nor the
trace. -/
theorem resolveSchema_eq_rewriteSchema : ∀ s : Schema,
    c.resolveSchema only s = c.rewriteSchema only s
  | .mk h fields => by
    rw [resolveSchema, rewriteSchema, resolveFields_eq_rewriteFields fields]

theorem resolveFields_eq_rewriteFields : ∀ fs : List Field,
    c.resolveFields only fs = c.rewriteFields only fs
  | [] => by rw [resolveFields, rewriteFields]
  | f :: fs => by
    rw [resolveFields, rewriteFields, resolveField_eq_rewriteField f,
      resolveFields_eq_rewriteFields fs]

theorem resolveField_eq_rewriteField : ∀ f : Field,
    c.resolveField only f = c.rewriteField only f
  | .mk p l => by rw [resolveField, rewriteField, resolveLink_eq_rewriteLink l p]

theorem resolveLink_eq_rewriteLink : ∀ (l : Link) (p : Property),
    c.resolveLink only p l = c.rewriteLink only p l
  | .none, _ => by rw [resolveLink, rewriteLink]
  | .nested s, _ => by
    rw [resolveLink, rewriteLink, resolveSchema_eq_rewriteSchema s]
    cases hd : s.hasDeferred with
    | true => rfl
    | false => rw [rewriteSchema_of_not_hasDeferred hd, pure_bind, if_neg Bool.false_ne_true]
  | .deferred _, _ => by rw [rewriteLink]

end

/-- **All effects of resolving can come first**: the flat schemas are made in the order of the
deferred fields, and then these are replaced. -/
theorem resolveSchema_eq (s : Schema) (depth : Nat) :
    c.resolveSchema only s = do
      c.flatAll (meantAmong only (s.deferrals depth))
      return s.replaceDeferred (c.attach only) := by
  rw [resolveSchema_eq_rewriteSchema, rewriteSchema_eq s depth]

/-! ## What is returned -/

/-- Why a type has no flat schema, if it has none. -/
def refusal (c : Compiler) (t : TypeId) : Option CompileError :=
  match c.source.fields t with
  | .ok _ => none
  | .error reason => some (.introspection t reason)

theorem refusal_eq_none_iff {t : TypeId} :
    c.refusal t = none ↔ ∃ ds, c.source.fields t = .ok ds := by
  rw [refusal]
  cases c.source.fields t <;> simp

theorem refusal_eq_some_iff {t : TypeId} {e : CompileError} :
    c.refusal t = some e ↔ ∃ reason, c.source.fields t = .error reason ∧
      e = .introspection t reason := by
  rw [refusal]
  cases c.source.fields t <;> simp [eq_comm]

/-- **Making flat schemas fails at the first type that cannot be introspected.** -/
theorem flatAll_outcome (ts : List TypeId) (trace : Trace) :
    ((c.flatAll ts).outcome trace).1 =
      match ts.findSome? c.refusal with
      | some e => .error e
      | none => .ok () := by
  induction ts generalizing trace with
  | nil => rfl
  | cons t ts ih =>
    rw [flatAll, outcome_bind_fst, flat_outcome, List.findSome?_cons, refusal]
    cases c.source.fields t with
    | ok ds => exact ih _
    | error reason => rfl

/-- **What a resolution returns.** -/
theorem resolveSchema_outcome (s : Schema) (depth : Nat) (trace : Trace) :
    ((c.resolveSchema only s).outcome trace).1 =
      match (meantAmong only (s.deferrals depth)).findSome? c.refusal with
      | some e => .error e
      | none => .ok (s.replaceDeferred (c.attach only)) := by
  rw [resolveSchema_eq s depth, outcome_bind_fst, flatAll_outcome]
  cases (meantAmong only (s.deferrals depth)).findSome? c.refusal <;> rfl

section

variable {s x : Schema} {e : CompileError} {depth : Nat} {trace : Trace}

/-- **A resolution succeeds if all types that are meant can be introspected**, and then it replaces
the deferred links. -/
theorem resolveSchema_ok_iff (depth : Nat) :
    ((c.resolveSchema only s).outcome trace).1 = .ok x ↔
      (∀ t ∈ meantAmong only (s.deferrals depth), ∃ ds, c.source.fields t = .ok ds) ∧
        x = s.replaceDeferred (c.attach only) := by
  simp only [resolveSchema_outcome s depth, ← refusal_eq_none_iff, ← List.findSome?_eq_none_iff]
  cases (meantAmong only (s.deferrals depth)).findSome? c.refusal <;> simp [eq_comm]

/-- **A resolution fails at the first type that is meant and cannot be introspected.** -/
theorem resolveSchema_error_iff (depth : Nat) :
    ((c.resolveSchema only s).outcome trace).1 = .error e ↔
      ∃ before t after reason, meantAmong only (s.deferrals depth) = before ++ t :: after ∧
        (∀ u ∈ before, ∃ ds, c.source.fields u = .ok ds) ∧
        c.source.fields t = .error reason ∧ e = .introspection t reason := by
  have hfirst : ((c.resolveSchema only s).outcome trace).1 = .error e ↔
      (meantAmong only (s.deferrals depth)).findSome? c.refusal = some e := by
    rw [resolveSchema_outcome s depth]
    cases (meantAmong only (s.deferrals depth)).findSome? c.refusal <;> simp
  rw [hfirst, List.findSome?_eq_some_iff]
  simp only [refusal_eq_none_iff, refusal_eq_some_iff]
  constructor
  · rintro ⟨before, t, after, hsplit, ⟨reason, ht, he⟩, hbefore⟩
    exact ⟨before, t, after, reason, hsplit, hbefore, ht, he⟩
  · rintro ⟨before, t, after, reason, hsplit, hbefore, ht, he⟩
    exact ⟨before, t, after, hsplit, ⟨reason, ht, he⟩, hbefore⟩

theorem stays_of_not_meant {d : Deferral} (h : d.1.filter (isMeant only) = none) :
    d.Stays (c.attach only) := by
  intro p r ho
  rw [attach, ho, h]
  rfl

/-- **A tree in which no deferred field is meant is left alone**, and nothing is introspected. -/
theorem resolve_of_none_meant (h : meantAmong only (s.deferrals 0) = []) :
    c.resolve only s = (.ok s, {}) := by
  have hself : s.replaceDeferred (c.attach only) = s :=
    s.replaceDeferred_eq_self 0 fun e he =>
      stays_of_not_meant (List.filterMap_eq_nil_iff.mp h e he)
  rw [resolve, resolveSchema_eq s 0, h, hself]
  rfl

/-- The deferred fields in the place of one that was resolved: those of the flat schema that is
attached, or the field itself if none is. -/
def remaining (c : Compiler) (only : Option TypeId) (e : Deferral) : List Deferral :=
  match (e.1.filter (isMeant only)).bind c.flat? with
  | some x => x.deferrals (e.2 + 1)
  | none => [e]

theorem become_remaining : Deferral.Become (c.attach only) (c.remaining only) := by
  intro p r depth
  rw [attach, remaining]
  cases (p.object.filter (isMeant only)).bind c.flat? <;> rfl

end

end Compiler

end SchemaTree
