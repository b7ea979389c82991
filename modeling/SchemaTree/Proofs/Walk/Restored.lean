import SchemaTree.Proofs.Walk.Growth

/-!
# What a walk gives back

A part of a walk borrows its session: **when it returns, the path is the one it was given, and
the cache and the pending types have only grown** (`Session.Restored`).  This holds whether the part
succeeds or fails, from wherever it fails, so the proofs follow the program and not what comes out
of it.

What carries them is that no type is on the path and in the cache at once.  A type that is
expanded stands on the path meanwhile; it is not in the cache then, so keeping its schema afterwards
overwrites nothing.

* `keeps_buildSchema`: the parts of a walk give back the session, if expanding types does.
* `compileType_restores`: **compiling a type gives back the session**, at any depth.
-/

namespace SchemaTree

namespace Session

/-- A later session: **the cache and the pending types have only grown**, and no entry has
changed. -/
structure Extends (s s' : Session) : Prop where
  cached : ∀ t x, s.cached? t = some x → s'.cached? t = some x
  pending : s.pending <+: s'.pending

/-- What a part of a walk gives back: a later session with **the same path**, in which no type is on
the path and in the cache at once. -/
structure Restored (s s' : Session) : Prop extends s.Extends s' where
  path : s'.path = s.path
  apart : s'.Apart

/-- A session is given back if no type was on the path and in the cache at once. -/
def Returns (s s' : Session) : Prop := s.Apart → s.Restored s'

variable {s s' s'' : Session} {t : TypeId}

theorem Extends.of_eq (hc : ∀ u, s'.cached? u = s.cached? u) (hq : s'.pending = s.pending) :
    s.Extends s' := ⟨fun u _ hx => (hc u).trans hx, hq ▸ List.prefix_refl _⟩

theorem Extends.refl (s : Session) : s.Extends s := of_eq (fun _ => rfl) rfl

theorem Extends.trans (h : s.Extends s') (h' : s'.Extends s'') : s.Extends s'' :=
  ⟨fun t x hx => h'.cached t x (h.cached t x hx), h.pending.trans h'.pending⟩

instance : IsPreorder Session Extends where
  refl := Extends.refl
  trans _ _ _ := Extends.trans

/-- **Deferring a type adds to the pending types at most.** -/
theorem Extends.defer (s : Session) (t : TypeId) (depth : Nat) : s.Extends (s.defer t depth) := by
  unfold Session.defer
  split
  · exact refl s
  · exact ⟨fun _ _ hx => hx, List.prefix_append _ _⟩

/-- **Keeping the schema of a type that is not in the cache changes no entry.** -/
theorem Extends.keep (ht : s.cached? t = none) (x : Schema) : s.Extends (s.keep t x) := by
  refine ⟨fun u y hu => ?_, List.prefix_refl _⟩
  have hne : u ≠ t := by
    rintro rfl
    rw [ht] at hu
    cases hu
  rw [cached?_keep_of_ne hne]
  exact hu

theorem Restored.refl (h : s.Apart) : s.Restored s := ⟨Extends.refl s, rfl, h⟩

theorem Restored.trans (h : s.Restored s') (h' : s'.Restored s'') : s.Restored s'' :=
  ⟨h.toExtends.trans h'.toExtends, h'.path.trans h.path, h'.apart⟩

instance : IsPreorder Session Returns where
  refl _ := Restored.refl
  trans _ _ _ h h' hs := (h hs).trans (h' (h hs).apart)

theorem Restored.of_cached_eq (h : s.Apart) (he : s.Extends s') (hp : s'.path = s.path)
    (hc : ∀ u, s'.cached? u = s.cached? u) : s.Restored s' := by
  refine ⟨he, hp, fun u hu => ?_⟩
  rw [hp] at hu
  rw [hc]
  exact h u hu

theorem Restored.note (h : s.Apart) (records : Log) : s.Restored (s.note records) :=
  of_cached_eq h (Extends.of_eq (fun _ => rfl) rfl) rfl fun _ => rfl

theorem Restored.defer (h : s.Apart) (t : TypeId) (depth : Nat) :
    s.Restored (s.defer t depth) :=
  of_cached_eq h (Extends.defer s t depth) (path_defer s t depth) fun u => cached?_defer s t u depth

/-- **Leaving a type that was entered gives back the session**, without that type in the cache. -/
theorem Restored.leave (h : (s.enter t).Restored s') :
    s.Restored s'.leave ∧ s'.leave.cached? t = none := by
  have hpath : s'.path = t :: s.path := h.path
  have hleft : s'.leave.path = s.path := by rw [path_leave, hpath, List.tail_cons]
  refine ⟨⟨⟨h.cached, h.pending⟩, hleft, fun u hu => ?_⟩, ?_⟩
  · rw [hleft] at hu
    exact h.apart u (by rw [hpath]; exact List.mem_cons_of_mem _ hu)
  · exact h.apart t (by rw [hpath]; exact List.mem_cons_self)

/-- **A type that is neither on the path nor in the cache may be kept.** -/
theorem Restored.keep (h : s.Restored s') (hp : t ∉ s.path) (hc : s'.cached? t = none)
    (x : Schema) : s.Restored (s'.keep t x) := by
  refine ⟨h.toExtends.trans (Extends.keep hc x), h.path, fun u hu => ?_⟩
  rw [path_keep, h.path] at hu
  rw [cached?_keep_of_ne (ne_of_mem_of_not_mem hu hp)]
  exact h.apart u (by rw [h.path]; exact hu)

end Session

namespace Compiler

/-- An expansion that gives back the session at a depth, without the type in the cache: **the
walk keeps its schema only afterwards.** -/
def RestoresAt (depth : Nat) (expand : Expansion) : Prop :=
  ∀ aliasName u s, s.Apart → s.cached? u = none →
    s.Restored ((expand aliasName u depth).run s).2 ∧
      ((expand aliasName u depth).run s).2.cached? u = none

variable {c : Compiler} {expand : Expansion} {t : TypeId} {depth : Nat}

theorem keeps_introspect : Stateful.Keeps Session.Returns (Walk.traced (c.introspect t)) := by
  intro s hs
  rw [Walk.run_traced]
  exact Session.Restored.of_cached_eq hs (Session.Extends.of_eq (fun _ => rfl) rfl) rfl fun _ => rfl

theorem keeps_link (hexp : RestoresAt (depth + 1) expand) (field : String) (u : TypeId) :
    Stateful.Keeps Session.Returns (c.link expand depth field u) := by
  intro s hs
  rcases link_run field u s with ⟨sub, hc, hrun⟩ | ⟨hc, hp, hrun⟩ | ⟨hc, hp, hrun⟩
  · rw [hrun]
    exact Session.Restored.refl hs
  · rw [hrun]
    have hnoted := Session.Restored.note hs [s.cycleRecord u field depth]
    exact hnoted.trans (Session.Restored.defer hnoted.apart u depth)
  · obtain ⟨hback, hnone⟩ := hexp (c.source.aliasFor u) u s hs hc
    rw [hrun, Stateful.run_bind]
    cases hexpand : (expand (c.source.aliasFor u) u (depth + 1)).run s with
    | mk result s₁ =>
      rw [hexpand] at hback hnone
      cases result with
      | ok schema => exact hback.keep hp hnone schema
      | error e => exact hback

theorem keeps_buildField (hexp : RestoresAt (depth + 1) expand) (d : Descriptor) :
    Stateful.Keeps Session.Returns (c.buildField expand t depth d) := by
  intro s hs
  have hd : s.Restored (c.described t d s) := Session.Restored.note hs _
  rcases buildField_run d s with ⟨-, hrun⟩ | ⟨-, -, hrun⟩ | ⟨u, -, hrun⟩
  · rw [hrun]
    exact hd
  · rw [hrun]
    exact hd
  · rw [hrun]
    have hlink : Stateful.Keeps Session.Returns (c.link expand depth (c.describe t d).name u) :=
      keeps_link hexp _ u
    have hfield := hlink.bind fun l => Stateful.Keeps.pure (some (Field.mk (c.describe t d) l))
    exact hd.trans (hfield _ hd.apart)

theorem keeps_buildFields (hexp : RestoresAt (depth + 1) expand) (ds : List Descriptor) :
    Stateful.Keeps Session.Returns (c.buildFields expand t depth ds) := by
  induction ds with
  | nil => exact Stateful.Keeps.pure []
  | cons d ds ih =>
    refine (keeps_buildField hexp d).bind fun f => ?_
    exact ih.bind fun fs => Stateful.Keeps.pure (f.toList ++ fs)

/-- **Building a schema gives back the session**, if expanding types does. -/
theorem keeps_buildSchema (hexp : RestoresAt (depth + 1) expand) (aliasName : String) :
    Stateful.Keeps Session.Returns (c.buildSchema expand aliasName t depth) :=
  keeps_introspect.bind fun ds => (keeps_buildFields hexp ds).bind fun _ => Stateful.Keeps.pure _

/-- **Compiling a type gives back the session**, whether it succeeds or fails. -/
theorem compileType_restores (room : Nat) : RestoresAt depth (c.compileType room) := by
  induction room generalizing depth with
  | zero => exact fun _ _ _ hs hu => ⟨Session.Restored.refl hs, hu⟩
  | succ room ih =>
    intro aliasName u s hs hu
    have hentered : (s.enter u).Apart := Session.Apart.enter hs hu
    have hbuilt : Stateful.Keeps Session.Returns
        (c.buildSchema (c.compileType room) aliasName u depth) := keeps_buildSchema ih aliasName
    exact (hbuilt (s.enter u) hentered).leave

end Compiler

end SchemaTree
