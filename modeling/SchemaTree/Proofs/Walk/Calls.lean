import SchemaTree.Proofs.Traversal
import SchemaTree.Proofs.Walk.Growth
import SchemaTree.Proofs.Walk.Stops

/-!
# What a walk introspects

A walk introspects a type when it enters it, and never again: from then on the type is on the
path or in the cache, so **the types that a session knows are those that were introspected**
(`Compiler.Explored`).

While a type is being built (`Compiler.Exploring`), all types introspected after it are
finished, and the targets of the fields already looked at are known.  Hence the next
type that is entered is the next one in depth-first order (`Exploring.visitsNext`).

* `Builds.explores`: fields that are built keep this.
* `Stops.explores`: **a walk that fails has introspected types in depth-first order up to the
  one it fails at** (`Compiler.EndsWith`).
-/

namespace SchemaTree

namespace Session

/-- The types that were introspected, in order. -/
def calls (s : Session) : List TypeId := s.trace.calls

variable (s : Session) (t : TypeId)

@[simp] theorem calls_note (records : Log) : (s.note records).calls = s.calls := rfl

@[simp] theorem calls_called : (s.called t).calls = s.calls ++ [t] := rfl

@[simp] theorem calls_enter : (s.enter t).calls = s.calls := rfl

@[simp] theorem calls_leave : s.leave.calls = s.calls := rfl

@[simp] theorem calls_keep (schema : Schema) : (s.keep t schema).calls = s.calls := rfl

@[simp] theorem calls_defer (depth : Nat) : (s.defer t depth).calls = s.calls := by
  unfold defer
  split <;> rfl

theorem knows_finish {path : List TypeId} (hp : s.path = t :: path) (x : Schema) (u : TypeId) :
    (s.leave.keep t x).Knows u ↔ s.Knows u := by
  by_cases hut : u = t
  · subst hut
    have hkept : ((s.leave.keep u x).cached? u).isSome := by rw [cached?_keep_self]; rfl
    have hpath : u ∈ s.path := by rw [hp]; exact List.mem_cons_self
    exact ⟨fun _ => Or.inl hpath, fun _ => Or.inr hkept⟩
  · have hpath : u ∈ (s.leave.keep t x).path ↔ u ∈ s.path := by
      rw [path_keep, path_leave, hp, List.tail_cons, List.mem_cons]
      exact (or_iff_right hut).symm
    have hcache : (s.leave.keep t x).cached? u = s.cached? u := by
      rw [cached?_keep_of_ne hut, cached?_leave]
    rw [Knows, Knows, hpath, hcache]

end Session

namespace Compiler

/-- A session that knows exactly the types that were introspected, all of them with success. -/
structure Explored (c : Compiler) (s : Session) : Prop where
  known : ∀ v, s.Knows v ↔ v ∈ s.calls
  readable : ∀ v ∈ s.calls, ∃ ds, c.source.fields v = .ok ds

/-- A session in which a type is being built, with the fields that are still to be looked at, and
the types that were introspected before that one.  **Those introspected after it have no unvisited
targets.** -/
structure Exploring (c : Compiler) (root t : TypeId) (before : List TypeId)
    (ds : List Descriptor) (s : Session) : Prop where
  explored : c.Explored s
  order : DepthFirst c.targets root s.calls
  position : ∃ after done, s.calls = before ++ t :: after ∧
    (∀ w ∈ after, Exhausted c.targets s.calls w) ∧
    c.targets t = done ++ c.targetsAmong t ds ∧ ∀ v ∈ done, v ∈ s.calls

variable {c : Compiler} {root t u : TypeId} {depth : Nat} {before : List TypeId} {d : Descriptor}
  {ds inner : List Descriptor} {s s' s₁ : Session} {fs : List Field}

@[simp] theorem calls_described (d : Descriptor) (s : Session) :
    (c.described t d s).calls = s.calls := rfl

@[simp] theorem calls_deferring (d : Descriptor) (u : TypeId) (s : Session) :
    (c.deferring t d u depth s).calls = s.calls := by
  simp [deferring]

theorem knows_deferring (d : Descriptor) (u v : TypeId) (s : Session) :
    (c.deferring t d u depth s).Knows v ↔ s.Knows v := by
  rw [Session.Knows, Session.Knows, path_deferring, cached?_deferring]

theorem Explored.described (h : c.Explored s) (t : TypeId) (d : Descriptor) :
    c.Explored (c.described t d s) := ⟨h.known, h.readable⟩

/-- **A type that is entered is being built from then on**, with all its fields still to come. -/
theorem Explored.enter (h : c.Explored s) (hfields : c.source.fields t = .ok ds)
    (horder : DepthFirst c.targets root (s.calls ++ [t])) :
    c.Exploring root t s.calls ds ((s.enter t).called t) := by
  constructor
  case order => exact horder
  case explored =>
    constructor
    · intro v
      have hknown := h.known v
      rw [Session.Knows] at hknown
      simp only [Session.Knows, Session.path_called, Session.path_enter, Session.cached?_called,
        Session.cached?_enter, Session.calls_called, Session.calls_enter, List.mem_append,
        List.mem_cons, List.not_mem_nil, or_false, ← hknown]
      rw [or_assoc, or_comm]
    · intro v hv
      rcases List.mem_append.mp hv with hv | hv
      · exact h.readable v hv
      · rw [List.mem_singleton.mp hv]
        exact ⟨ds, hfields⟩
  case position =>
    refine ⟨[], [], rfl, ?_, ?_, ?_⟩
    · exact fun w hw => absurd hw List.not_mem_nil
    · rw [List.nil_append, targets_of_fields hfields]
    · exact fun v hv => absurd hv List.not_mem_nil

theorem Exploring.skip (h : c.Exploring root t before (d :: ds) s) (hcalls : s'.calls = s.calls)
    (hknows : ∀ v, s'.Knows v ↔ s.Knows v)
    (ht : ∀ u, (c.describe t d).target? = some u → s.Knows u) :
    c.Exploring root t before ds s' := by
  obtain ⟨after, done, hsplit, hafter, htargets, hdone⟩ := h.position
  constructor
  case explored =>
    constructor
    · intro v
      rw [hknows v, hcalls]
      exact h.explored.known v
    · rw [hcalls]
      exact h.explored.readable
  case order =>
    rw [hcalls]
    exact h.order
  case position =>
    rw [hcalls]
    cases hd : (c.describe t d).target? with
    | none =>
      rw [targetsAmong_cons_none hd] at htargets
      exact ⟨after, done, hsplit, hafter, htargets, hdone⟩
    | some u =>
      rw [targetsAmong_cons_some hd] at htargets
      refine ⟨after, done ++ [u], hsplit, hafter, by simpa using htargets, ?_⟩
      intro v hv
      rcases List.mem_append.mp hv with hv | hv
      · exact hdone v hv
      · rw [List.mem_singleton.mp hv]
        exact (h.explored.known u).mp (ht u hd)

/-- **A type that is not known yet is visited next when a field refers to it.** -/
theorem Exploring.visitsNext (h : c.Exploring root t before (d :: ds) s)
    (ht : (c.describe t d).target? = some u) (hu : ¬ s.Knows u) :
    VisitsNext c.targets s.calls u := by
  obtain ⟨after, done, hsplit, hafter, htargets, hdone⟩ := h.position
  rw [targetsAmong_cons_some ht] at htargets
  constructor
  case unvisited =>
    intro hmem
    exact hu ((h.explored.known u).mpr hmem)
  case first => exact ⟨before, t, after, done, _, hsplit, hafter, htargets, hdone⟩

/-- **A type that was built may be left and kept**: it has no unvisited targets. -/
theorem Exploring.finish (h : c.Exploring root t before (d :: ds) s)
    (ht : (c.describe t d).target? = some u) (hin : c.Exploring root u s.calls [] s₁)
    {path : List TypeId} (hp : s₁.path = u :: path) (x : Schema) :
    c.Exploring root t before ds (s₁.leave.keep u x) := by
  obtain ⟨after, done, hsplit, hafter, htargets, hdone⟩ := h.position
  obtain ⟨after', done', hsplit', hafter', htargets', hdone'⟩ := hin.position
  rw [targetsAmong_cons_some ht] at htargets
  have hsub : ∀ v ∈ s.calls, v ∈ s₁.calls := by
    intro v hv
    rw [hsplit']
    exact List.mem_append_left _ hv
  have hu : u ∈ s₁.calls := by
    rw [hsplit']
    exact List.mem_append_right _ List.mem_cons_self
  constructor
  case explored =>
    constructor
    · intro v
      rw [Session.knows_finish _ _ hp]
      exact hin.explored.known v
    · exact hin.explored.readable
  case order => exact hin.order
  case position =>
    rw [Session.calls_keep, Session.calls_leave]
    refine ⟨after ++ u :: after', done ++ [u], ?_, ?_, by simpa using htargets, ?_⟩
    · rw [hsplit', hsplit, List.append_assoc, List.cons_append]
    · -- Types visited before u was entered, u itself, and those visited inside it.
      intro w hw v hv
      rcases List.mem_append.mp hw with hw | hw
      · exact hsub v (hafter w hw v hv)
      · rcases List.mem_cons.mp hw with rfl | hw
        · rw [htargets'] at hv
          exact hdone' v (by simpa [targetsAmong] using hv)
        · exact hafter' w hw v hv
    · intro v hv
      rcases List.mem_append.mp hv with hv | hv
      · exact hsub v (hdone v hv)
      · rw [List.mem_singleton.mp hv]
        exact hu

/-- **Building some of the fields of a type leaves the others to be looked at**, and keeps the types
that were introspected in depth-first order. -/
theorem Builds.explores (h : c.Builds t depth ds s fs s') {more : List Descriptor}
    (hs : c.Exploring root t before (ds ++ more) s) : c.Exploring root t before more s' := by
  induction h generalizing before more with
  | nil => exact hs
  | @ignored t _ d _ s _ _ hd _ ih =>
    have hnone : (c.describe t d).target? = none := by simp [Property.target?, hd]
    refine ih (hs.skip rfl (fun _ => Iff.rfl) fun u hu => ?_)
    rw [hnone] at hu
    cases hu
  | plain _ ht _ ih =>
    refine ih (hs.skip rfl (fun _ => Iff.rfl) fun u hu => ?_)
    rw [ht] at hu
    cases hu
  | shared ht hu _ ih =>
    refine ih (hs.skip rfl (fun _ => Iff.rfl) fun v hv => Or.inr ?_)
    obtain rfl := Option.some.inj (ht.symm.trans hv)
    rw [hu]
    rfl
  | deferred ht _ hp _ ih =>
    refine ih (hs.skip (calls_deferring _ _ _) (fun v => knows_deferring _ _ v _) fun v hv => ?_)
    obtain rfl := Option.some.inj (ht.symm.trans hv)
    exact Or.inl hp
  | @expanded t _ d _ inner s s₁ _ _ _ u ht hu hp _ hfields inside _ ihi ihr =>
    have hnew : ¬ s.Knows u := by
      rintro (hpath | hcached)
      · exact hp hpath
      · rw [hu] at hcached
        cases hcached
    have horder := hs.order.next (hs.visitsNext ht hnew)
    have hentered := (hs.explored.described t d).enter hfields horder
    rw [← List.append_nil inner] at hentered
    exact ihr (hs.finish ht (ihi hentered) inside.path_eq _)

/-! ## Walks that fail -/

/-- Where the types that were introspected end when a walk fails.  **Either the last one failed, and
no other**, or all succeeded and the one that comes next would have been too deep. -/
inductive EndsWith (c : Compiler) : List TypeId → CompileError → Prop
  | unreadable {visited : List TypeId} {t : TypeId} {reason : String}
      (ht : c.source.fields t = .error reason)
      (hread : ∀ v ∈ visited, ∃ ds, c.source.fields v = .ok ds) :
      EndsWith c (visited ++ [t]) (.introspection t reason)
  | tooDeep {visited : List TypeId} {u : TypeId} {depth : Nat}
      (hu : VisitsNext c.targets visited u)
      (hread : ∀ v ∈ visited, ∃ ds, c.source.fields v = .ok ds) :
      EndsWith c visited (.depthExceeded (c.source.aliasFor u) depth c.options.maxDepth)

theorem EndsWith.of_introspection {visited : List TypeId} {reason : String}
    (h : c.EndsWith visited (.introspection t reason)) :
    c.source.fields t = .error reason ∧ ∃ before, visited = before ++ [t] ∧
      ∀ v ∈ before, ∃ ds, c.source.fields v = .ok ds := by
  cases h with
  | unreadable ht hread => exact ⟨ht, _, rfl, hread⟩

theorem EndsWith.of_depthExceeded {visited : List TypeId} {aliasName : String} {limit : Nat}
    (h : c.EndsWith visited (.depthExceeded aliasName depth limit)) :
    ∃ u, aliasName = c.source.aliasFor u ∧ VisitsNext c.targets visited u ∧
      ∀ v ∈ visited, ∃ ds, c.source.fields v = .ok ds := by
  cases h with
  | tooDeep hu hread => exact ⟨_, rfl, hu, hread⟩

theorem ComesTo.explores {past after : List Descriptor} (h : c.ComesTo t depth s past d after u s₁)
    (hs : c.Explored s) (horder : DepthFirst c.targets root (s.calls ++ [t])) :
    c.Exploring root t s.calls (d :: after) s₁ := by
  obtain ⟨fs, hb⟩ := h.builds
  exact hb.explores (hs.enter h.fields horder)

theorem ComesTo.not_knows {past after : List Descriptor}
    (h : c.ComesTo t depth s past d after u s₁) : ¬ s₁.Knows u := by
  rintro (hpath | hcached)
  · exact h.new hpath
  · rw [h.unfinished] at hcached
    cases hcached

/-- **A walk that fails has introspected types in depth-first order**, up to the one at which it
fails. -/
theorem Stops.explores {e : CompileError} (h : c.Stops t depth s e s') (hs : c.Explored s)
    (horder : DepthFirst c.targets root (s.calls ++ [t])) :
    DepthFirst c.targets root s'.calls ∧ c.EndsWith s'.calls e := by
  induction h with
  | unreadable hfields => exact ⟨horder, EndsWith.unreadable hfields hs.readable⟩
  | tooDeep hcomes _ =>
    have hexp := hcomes.explores hs horder
    have hnext := hexp.visitsNext hcomes.target hcomes.not_knows
    exact ⟨hexp.order, EndsWith.tooDeep hnext hexp.explored.readable⟩
  | inside hcomes _ ih =>
    have hexp := hcomes.explores hs horder
    have hnext := hexp.visitsNext hcomes.target hcomes.not_knows
    exact ih (hexp.explored.described _ _) (hexp.order.next hnext)

end Compiler

end SchemaTree
