import SchemaTree.Proofs.Walk.Builds

/-!
# Sessions that grow

A walk comes back to the path it started from, and in between it only ever adds: to the cache
schemas of types that were not in it, to the pending types those it defers.  A type
that it has left is in the cache.

* `Session.Apart`: no type is on the path and in the cache at once.  This is why
  looking into the cache first hides no cycle.
* `Builds.path_eq`, `Builds.apart`, `Builds.grows`: what a walk keeps of the session it
  starts from.
-/

namespace SchemaTree

/-- No type is on the path and in the cache at once. -/
def Session.Apart (s : Session) : Prop := ∀ t ∈ s.path, s.cached? t = none

/-- What a later session of the same walk has kept of an earlier one. -/
structure Session.Grows (s s' : Session) : Prop where
  cached : ∀ t x, s.cached? t = some x → s'.cached? t = some x
  knows : ∀ t, s.Knows t → s'.Knows t
  pending : ∀ t, t ∈ s.pendingTypes → t ∈ s'.pendingTypes

namespace Session

theorem Grows.refl (s : Session) : s.Grows s :=
  ⟨fun _ _ h => h, fun _ h => h, fun _ h => h⟩

theorem Grows.trans {s s' s'' : Session} (h : s.Grows s') (h' : s'.Grows s'') : s.Grows s'' :=
  ⟨fun t x hx => h'.cached t x (h.cached t x hx), fun t ht => h'.knows t (h.knows t ht),
    fun t ht => h'.pending t (h.pending t ht)⟩

theorem Grows.of_eq {s s' : Session} (hp : s'.path = s.path) (hc : s'.cache = s.cache)
    (hq : s'.pending = s.pending) : s.Grows s' := by
  have hcached : ∀ t, s'.cached? t = s.cached? t := fun t => by rw [cached?, hc, cached?]
  refine ⟨fun t x hx => (hcached t).trans hx, fun t ht => ?_, fun t ht => ?_⟩
  · rw [Knows, hp, hcached]
    exact ht
  · rw [pendingTypes, hq]
    exact ht

theorem Grows.enter (s : Session) (t : TypeId) : s.Grows (s.enter t) :=
  ⟨fun _ _ h => h, fun _ h => h.imp_left (List.mem_cons_of_mem _), fun _ h => h⟩

/-- **The type that is left is kept, so it stays known.** -/
theorem Grows.finish {s : Session} {t : TypeId} {path : List TypeId} (hs : s.Apart)
    (hp : s.path = t :: path) (x : Schema) : s.Grows (s.leave.keep t x) := by
  have ht : s.cached? t = none := hs t (by rw [hp]; exact List.mem_cons_self)
  refine ⟨fun u y hu => ?_, fun u hu => ?_, fun u hu => hu⟩
  · -- A type that was in the cache is not the one that is left.
    have hne : u ≠ t := by
      rintro rfl
      rw [ht] at hu
      cases hu
    rw [cached?_keep_of_ne hne]
    exact hu
  · by_cases hut : u = t
    · subst hut
      exact Or.inr (by rw [cached?_keep_self]; rfl)
    · rcases hu with hu | hu
      · rw [hp] at hu
        refine Or.inl ?_
        rw [path_keep, path_leave, hp]
        exact (List.mem_cons.mp hu).resolve_left hut
      · exact Or.inr (by rw [cached?_keep_of_ne hut]; exact hu)

theorem Apart.enter {s : Session} {t : TypeId} (hs : s.Apart) (ht : s.cached? t = none) :
    (s.enter t).Apart := by
  intro u hu
  rcases List.mem_cons.mp hu with rfl | hu
  · exact ht
  · exact hs u hu

theorem Apart.finish {s : Session} {t : TypeId} {path : List TypeId} (hs : s.Apart)
    (hp : s.path = t :: path) (ht : t ∉ path) (x : Schema) : (s.leave.keep t x).Apart := by
  intro u hu
  rw [path_keep, path_leave, hp] at hu
  rw [cached?_keep_of_ne (by rintro rfl; exact ht hu)]
  exact hs u (by rw [hp]; exact List.mem_cons_of_mem _ hu)

end Session

namespace Compiler

variable {c : Compiler} {t : TypeId} {depth : Nat} {ds : List Descriptor} {s s' : Session}
  {fs : List Field}

theorem grows_described (d : Descriptor) (s : Session) : s.Grows (c.described t d s) :=
  Session.Grows.of_eq rfl rfl rfl

theorem grows_deferring (d : Descriptor) (u : TypeId) (s : Session) :
    s.Grows (c.deferring t d u depth s) := by
  refine ⟨fun v x hv => ?_, fun v hv => ?_, fun v hv => ?_⟩
  · rw [cached?_deferring]
    exact hv
  · rw [Session.Knows, path_deferring, cached?_deferring]
    exact hv
  · exact (mem_pendingTypes_deferring d u v s).mpr (Or.inl hv)

theorem grows_expanding (d : Descriptor) (u : TypeId) (s : Session) :
    s.Grows (((c.described t d s).enter u).called u) :=
  (Session.Grows.enter s u).trans (Session.Grows.of_eq rfl rfl rfl)

theorem apart_deferring (hs : s.Apart) (d : Descriptor) (u : TypeId) :
    (c.deferring t d u depth s).Apart := by
  intro v hv
  rw [path_deferring] at hv
  rw [cached?_deferring]
  exact hs v hv

/-- **A walk comes back to its path.** -/
theorem Builds.path_eq (h : c.Builds t depth ds s fs s') : s'.path = s.path := by
  induction h with
  | nil => rfl
  | ignored _ _ ih => exact ih
  | plain _ _ _ ih => exact ih
  | shared _ _ _ ih => exact ih
  | deferred _ _ _ _ ih => rw [ih, path_deferring]
  | expanded _ _ _ _ _ _ _ ihi ihr =>
    rw [ihr, Session.path_keep, Session.path_leave, ihi]
    rfl

theorem Builds.apart (h : c.Builds t depth ds s fs s') (hs : s.Apart) : s'.Apart := by
  induction h with
  | nil => exact hs
  | ignored _ _ ih => exact ih hs
  | plain _ _ _ ih => exact ih hs
  | shared _ _ _ ih => exact ih hs
  | deferred _ _ _ _ ih => exact ih (apart_deferring hs _ _)
  | expanded _ hu hp _ _ inside _ ihi ihr =>
    have hin := ihi (Session.Apart.enter hs hu)
    exact ihr (hin.finish inside.path_eq hp _)

/-- **A walk only adds to the cache and to the pending types, and forgets no type.** -/
theorem Builds.grows (h : c.Builds t depth ds s fs s') (hs : s.Apart) : s.Grows s' := by
  induction h with
  | nil => exact Session.Grows.refl _
  | ignored _ _ ih => exact (grows_described _ _).trans (ih hs)
  | plain _ _ _ ih => exact (grows_described _ _).trans (ih hs)
  | shared _ _ _ ih => exact (grows_described _ _).trans (ih hs)
  | deferred _ _ _ _ ih => exact (grows_deferring _ _ _).trans (ih (apart_deferring hs _ _))
  | expanded _ hu hp _ _ inside _ ihi ihr =>
    have hent := Session.Apart.enter hs hu
    have hin := inside.apart hent
    have hinside := (grows_expanding _ _ _).trans (ihi hent)
    refine (hinside.trans ?_).trans (ihr (hin.finish inside.path_eq hp _))
    exact Session.Grows.finish hin inside.path_eq _

end Compiler

end SchemaTree
