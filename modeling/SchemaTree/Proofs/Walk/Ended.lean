import SchemaTree.Proofs.Walk.Tasks

/-!
# What the tasks of a walk leave behind

A task gives back the session from which it was begun (`Invariant.restored`).  Between that
and the end of the task there are the tasks that it starts: **the session only grows up to each of
them, and from there on** (`Starts.extends`).  So at no time an entry of the cache or of the pending
types changes.

No part of a walk is missing among the tasks that are begun: **whatever a walk introspects, it
introspects for a task that builds a schema**, also if it fails later
(`exists_begun_of_mem_calls`).  The trace is followed through the program, where each part is known
to be a task that was begun from the session that the parts before it have left.
-/

namespace SchemaTree

namespace Compiler

variable {c : Compiler} {aliasName : String} {root t u : TypeId} {depth : Nat} {d : Descriptor}
  {ds : List Descriptor} {s s' : Session} {task task' : Task}

/-! ## What is given back -/

theorem below_restores (c : Compiler) (depth : Nat) : RestoresAt (depth + 1) (c.below depth) :=
  compileType_restores _

/-- **A task gives back the session from which it may be begun.** -/
theorem Invariant.restored (h : c.Invariant root task s) : s.Restored (c.after task s) := by
  have hs := h.sound.apart
  cases task with
  | compileType aliasName t depth => exact (compileType_restores _ _ t s hs h.begins.1).1
  | buildSchema aliasName t depth => exact keeps_buildSchema (below_restores c depth) aliasName s hs
  | buildFields t depth ds => exact keeps_buildFields (below_restores c depth) ds s hs
  | link t depth d u => exact keeps_link (below_restores c depth) _ u s hs

theorem after_compileType (hdepth : depth ≤ c.options.maxDepth) :
    c.after (.compileType aliasName t depth) s =
      (c.after (.buildSchema aliasName t depth) (s.enter t)).leave := by
  rw [after, Nat.succ_sub hdepth]
  rfl

theorem after_compileType_succ :
    c.after (.compileType aliasName t (depth + 1)) s =
      ((c.below depth aliasName t (depth + 1)).run s).2 := by
  rw [after, below, Nat.add_sub_add_right]

theorem buildField_of_target {expand : Expansion} (ht : (c.describe t d).target? = some u) :
    (c.buildField expand t depth d).run s = (do
      let l ← c.link expand depth (c.describe t d).name u
      return some (.mk (c.describe t d) l) : Walk (Option Field)).run (c.described t d s) := by
  rcases buildField_run d s with ⟨hi, -⟩ | ⟨-, hnone, -⟩ | ⟨v, hv, hrun⟩
  · rw [ignored_of_target ht] at hi
    cases hi
  · rw [ht] at hnone
    cases hnone
  · rw [ht] at hv
    cases hv
    exact hrun

theorem restored_of_buildField {f : Option Field} (hs : s.Apart)
    (h : (c.buildField (c.below depth) t depth d).run s = (.ok f, s')) : s.Restored s' := by
  have hfield : s.Restored ((c.buildField (c.below depth) t depth d).run s).2 :=
    keeps_buildField (below_restores c depth) d s hs
  rw [h] at hfield
  exact hfield

theorem extends_link (hs : s.Apart) (ht : (c.describe t d).target? = some u) :
    (c.after (.link t depth d u) (c.described t d s)).Extends
      (c.after (.buildFields t depth (d :: ds)) s) := by
  have hbuilt : (c.after (.link t depth d u) (c.described t d s)).Extends
      ((c.buildField (c.below depth) t depth d).run s).2 := by
    rw [buildField_of_target ht]
    exact Stateful.related_second fun _ s₁ _ => Session.Extends.refl s₁
  refine hbuilt.trans (Stateful.related_second fun f s₁ hf => ?_)
  have hrest : s₁.Restored (c.after (.buildFields t depth ds) s₁) :=
    keeps_buildFields (below_restores c depth) ds s₁ (restored_of_buildField hs hf).apart
  exact Stateful.related_bind hrest.toExtends fun _ s₂ _ => Session.Extends.refl s₂

theorem extends_expand (hs : s.Apart) (hu : s.cached? u = none) (hp : u ∉ s.path) :
    (c.after (.compileType (c.source.aliasFor u) u (depth + 1)) s).Extends
      (c.after (.link t depth d u) s) := by
  have hnone := (below_restores c depth (c.source.aliasFor u) u s hs hu).2
  rw [after_compileType_succ, after]
  rcases link_run (c.describe t d).name u s with ⟨sub, hc, -⟩ | ⟨-, hpath, -⟩ | ⟨-, -, hrun⟩
  · rw [hu] at hc
    cases hc
  · exact absurd hpath hp
  · rw [hrun]
    refine Stateful.related_second fun schema s₁ hcompiled => ?_
    rw [hcompiled] at hnone
    exact Session.Extends.keep hnone schema

/-- **The session only grows up to each task that is started, and from there on.** -/
theorem Starts.extends (h : c.Starts task s task' s') (hs : s.Apart) :
    s.Extends s' ∧ (c.after task' s').Extends (c.after task s) := by
  cases h with
  | build hdepth =>
    rw [after_compileType hdepth]
    exact ⟨Session.Extends.of_eq (fun _ => rfl) rfl, Session.Extends.of_eq (fun _ => rfl) rfl⟩
  | fields h =>
    obtain ⟨-, rfl⟩ := Walk.introspect_ok h
    refine ⟨Session.Extends.of_eq (fun _ => rfl) rfl, ?_⟩
    rw [after, after, buildSchema, Stateful.run_bind, h]
    exact Stateful.related_second fun _ s₁ _ => Session.Extends.refl s₁
  | link ht => exact ⟨Session.Extends.of_eq (fun _ => rfl) rfl, extends_link hs ht⟩
  | next h =>
    refine ⟨(restored_of_buildField hs h).toExtends, ?_⟩
    rw [after, after, buildFields, Stateful.run_bind, h]
    exact Stateful.related_second fun _ s₁ _ => Session.Extends.refl s₁
  | expand hu hp => exact ⟨Session.Extends.refl s, extends_expand hs hu hp⟩

/-! ## What is introspected -/

/-- All types that were introspected between two sessions have their schemas built by tasks. -/
def Attributed (c : Compiler) (aliasName : String) (s s' : Session) : Prop :=
  ∀ v ∈ s'.calls, v ∈ s.calls ∨ ∃ a depth s₁, c.Begun aliasName (.buildSchema a v depth) s₁

theorem Attributed.of_eq (h : s'.calls = s.calls) : c.Attributed aliasName s s' := by
  intro v hv
  rw [h] at hv
  exact Or.inl hv

instance : IsPreorder Session (c.Attributed aliasName) where
  refl _ := Attributed.of_eq rfl
  trans _ _ _ h h' v hv := (h' v hv).elim (h v) Or.inr

/-- The introspections of types that are compiled at a depth are those of tasks. -/
def AttributedAt (c : Compiler) (aliasName : String) (depth : Nat) : Prop :=
  ∀ a u s, c.Begun aliasName (.compileType a u depth) s →
    c.Attributed aliasName s (c.after (.compileType a u depth) s)

theorem attributed_link (hexp : c.AttributedAt aliasName (depth + 1))
    (h : c.Begun aliasName (.link t depth d u) s) :
    c.Attributed aliasName s (c.after (.link t depth d u) s) := by
  rw [after]
  rcases link_run (c.describe t d).name u s with ⟨sub, hc, hrun⟩ | ⟨hc, hp, hrun⟩ | ⟨hc, hp, hrun⟩
  · rw [hrun]
    exact Attributed.of_eq rfl
  · rw [hrun]
    exact Attributed.of_eq (Session.calls_defer _ u depth)
  · have hcompiled := hexp _ u s (h.started (.expand hc hp))
    rw [after_compileType_succ] at hcompiled
    rw [hrun]
    exact Stateful.related_bind hcompiled fun _ _ _ => Attributed.of_eq rfl

theorem attributed_buildField (hexp : c.AttributedAt aliasName (depth + 1))
    (h : c.Begun aliasName (.buildFields t depth (d :: ds)) s) :
    c.Attributed aliasName s ((c.buildField (c.below depth) t depth d).run s).2 := by
  rcases buildField_run d s with ⟨-, hrun⟩ | ⟨-, -, hrun⟩ | ⟨u, ht, hrun⟩
  · rw [hrun]
    exact Attributed.of_eq rfl
  · rw [hrun]
    exact Attributed.of_eq rfl
  · have hlink := attributed_link hexp (h.started (.link ht))
    rw [hrun]
    exact Stateful.related_bind hlink fun _ _ _ => Attributed.of_eq rfl

theorem attributed_buildFields (hexp : c.AttributedAt aliasName (depth + 1))
    (h : c.Begun aliasName (.buildFields t depth ds) s) :
    c.Attributed aliasName s (c.after (.buildFields t depth ds) s) := by
  induction ds generalizing s with
  | nil => exact Attributed.of_eq rfl
  | cons d ds ih =>
    refine Stateful.related_bind (attributed_buildField hexp h) fun f s₁ hf => ?_
    exact Stateful.related_bind (ih (h.started (.next hf))) fun _ _ _ => Attributed.of_eq rfl

theorem attributed_buildSchema {a : String} (hexp : c.AttributedAt aliasName (depth + 1))
    (h : c.Begun aliasName (.buildSchema a t depth) s) :
    c.Attributed aliasName s (c.after (.buildSchema a t depth) s) := by
  have hintro : c.Attributed aliasName s ((Walk.traced (c.introspect t)).run s).2 := by
    rw [Walk.run_traced, introspect_outcome]
    intro v hv
    rcases List.mem_append.mp hv with hv | hv
    · exact Or.inl hv
    · rw [List.mem_singleton.mp hv]
      exact Or.inr ⟨a, depth, s, h⟩
  refine Stateful.related_bind hintro fun ds s₁ hfields => ?_
  have hbuilt := attributed_buildFields hexp (h.started (.fields hfields))
  exact Stateful.related_bind hbuilt fun _ _ _ => Attributed.of_eq rfl

theorem attributedAt (c : Compiler) (aliasName : String) (depth : Nat) :
    c.AttributedAt aliasName depth := by
  induction hroom : c.options.maxDepth + 1 - depth generalizing depth with
  | zero =>
    intro a u s _
    rw [after, hroom]
    exact Attributed.of_eq rfl
  | succ room ih =>
    intro a u s h
    have hdepth : depth ≤ c.options.maxDepth := by omega
    have hbuilt := attributed_buildSchema (ih (depth + 1) (by omega)) (h.started (.build hdepth))
    rw [after_compileType hdepth]
    exact hbuilt

theorem calls_report (hroot : c.source.resolve aliasName = some t) :
    (c.report aliasName).2.calls = (c.walkFrom aliasName t).2.calls := by
  rcases report_of_walk hroot with ⟨x, s, hw, hr⟩ | ⟨e, s, hw, hr⟩
  · rw [hr, hw]
    rfl
  · rw [hr, hw]
    rfl

/-- **The types that a compilation introspects are those whose schemas its tasks build.** -/
theorem exists_begun_of_mem_calls (h : t ∈ (c.report aliasName).2.calls) :
    ∃ a depth s, c.Begun aliasName (.buildSchema a t depth) s := by
  cases hroot : c.source.resolve aliasName with
  | none =>
    rw [report, hroot] at h
    exact absurd h List.not_mem_nil
  | some root =>
    rw [calls_report hroot] at h
    have hwalk : c.Attributed aliasName (({} : Session).note [beginRecord aliasName root])
        (c.walkFrom aliasName root).2 := attributedAt c aliasName 0 _ _ _ (.root hroot)
    exact (hwalk t h).resolve_left List.not_mem_nil

end Compiler

end SchemaTree
