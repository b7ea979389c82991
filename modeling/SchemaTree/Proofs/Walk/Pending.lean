import SchemaTree.Proofs.Schema.Deferrals
import SchemaTree.Proofs.Walk.Sound

/-!
# What a walk leaves pending

A walk writes down a pending type when it defers a field, with the depth at which it is.  The
tree that comes out holds more deferred fields than that: a schema that is attached again brings
its own along, at other depths.  None of them is the first for its type.

* `Session.map_pending_defer`: pending types are kept as deferred fields are added one by one.
* `Sound.any_pending`: the deferred fields of a finished schema are all pending.
* `Builds.pending_eq_foldl`: **a walk adds the deferred fields of what it builds to the pending
  types, one by one.**
-/

namespace SchemaTree

/-- A pending type as the deferred field for which it was written down. -/
def Deferral.ofPending (e : TypeId × Nat) : Deferral := (some e.1, e.2)

namespace Session

variable {s : Session} {u : TypeId}

theorem any_sameTarget_iff {depth : Nat} :
    (s.pending.map Deferral.ofPending).any (Deferral.sameTarget (some u, depth)) = true ↔
      u ∈ s.pendingTypes := by
  rw [List.any_map, List.any_eq_true, pendingTypes, List.mem_map]
  refine exists_congr fun e => and_congr_right fun _ => ?_
  rw [Function.comp_apply, Deferral.ofPending, Deferral.sameTarget, beq_iff_eq, Option.some_inj]
  exact eq_comm

/-- **Deferring a type adds a deferred field.** -/
theorem map_pending_defer (depth : Nat) :
    (s.defer u depth).pending.map Deferral.ofPending =
      Deferral.add (s.pending.map Deferral.ofPending) (some u, depth) := by
  by_cases hu : u ∈ s.pendingTypes
  · rw [Deferral.add_of_any (any_sameTarget_iff.mpr hu), defer, if_pos]
    simpa [pendingTypes] using hu
  · rw [Deferral.add, if_neg (mt any_sameTarget_iff.mp hu), defer, if_neg]
    · rw [List.map_append, List.map_singleton, Deferral.ofPending]
    · simpa [pendingTypes] using hu

end Session

namespace Compiler

variable {c : Compiler} {t u : TypeId} {depth : Nat} {ds : List Descriptor} {s s' : Session}
  {fs : List Field}

/-- **All deferred fields of a finished schema are pending.** -/
theorem Sound.any_pending (h : c.Sound s) {x : Schema} (hx : s.cached? u = some x) :
    ∀ e ∈ x.deferrals depth,
      (s.pending.map Deferral.ofPending).any (Deferral.sameTarget e) = true := by
  intro e he
  obtain ⟨o, ho, f, hf, hd, rfl⟩ := (Schema.mem_deferrals (some u)).mp he
  obtain ⟨v, -, hv, -⟩ := h.occurrence hx o ho
  obtain ⟨ref, hl⟩ := Field.isDeferred_iff.mp hd
  obtain ⟨w, hw, -, -, hpending, -⟩ := ((h.fills v o.schema hv).linked f hf).of_deferred hl
  rw [object_of_target hw]
  exact Session.any_sameTarget_iff.mpr hpending

/-- **A walk adds the deferred fields of what it builds to the pending types**, in the order of the
tree.  Those of a schema that is attached again are all pending. -/
theorem Builds.pending_eq_foldl (h : c.Builds t depth ds s fs s') (hr : c.Ready s t ds) :
    s'.pending.map Deferral.ofPending =
      (Field.deferralsAll depth fs).foldl Deferral.add (s.pending.map Deferral.ofPending) := by
  induction h with
  | nil => rfl
  | ignored _ _ ih => exact ih hr.described
  | plain _ _ _ ih => exact ih hr.described
  | @shared _ depth _ _ s _ _ u x ht hu _ ih =>
    have hall : ∀ e ∈ x.deferrals (depth + 1),
        (s.pending.map Deferral.ofPending).any (Deferral.sameTarget e) = true :=
      hr.sound.any_pending hu
    rw [Field.deferralsAll, List.foldl_append, Field.deferrals, Link.deferrals,
      Deferral.foldl_add_of_any hall]
    exact ih hr.described
  | @deferred _ depth _ _ s _ _ u ht _ _ _ ih =>
    rw [ih (hr.deferring _ _), Field.deferralsAll, List.foldl_append, Field.deferrals,
      Link.deferrals, object_of_target ht, List.foldl_cons, List.foldl_nil, deferring,
      Session.map_pending_defer, Session.pending_note, pending_described]
  | expanded ht hu hp _ hfields inside _ ihi ihr =>
    rw [ihr (hr.expanded ht hu hp hfields inside), Session.pending_keep, Session.pending_leave,
      ihi (hr.expanding ht hu hfields), Field.deferralsAll, List.foldl_append]
    rfl

end Compiler

end SchemaTree
