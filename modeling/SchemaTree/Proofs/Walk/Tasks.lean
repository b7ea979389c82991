import SchemaTree.Proofs.Schema.Deferrals
import SchemaTree.Proofs.Walk.Calls
import SchemaTree.Proofs.Walk.Restored
import SchemaTree.Proofs.Walk.Sound

/-!
# The tasks of a walk

A walk is a tree of *tasks*: to compile a type, to build its schema, to build the fields that are
left, to link a field.  `Compiler.Starts` says which tasks a task starts, and from which sessions;
`Compiler.Begun` holds of all tasks that are begun when the type of an alias is compiled, also if
that fails later.

A session is well formed whenever a task is begun (`Begun.invariant`).  While a type is being built,
**the path is the chain of types from the root to it** (`Compiler.ChainTo`), and all types
that were deferred are known (`Session.Accounted`).  The latter does not hold at all times: a
type that refers to itself is pending, and it is not known between the moment when it is left and
that when its schema is kept.  No task is begun in between.
-/

namespace SchemaTree

/-- A task of a walk, for a type at a depth. -/
inductive Task where
  | compileType (aliasName : String) (t : TypeId) (depth : Nat)
  | buildSchema (aliasName : String) (t : TypeId) (depth : Nat)
  /-- Build the fields that are left. -/
  | buildFields (t : TypeId) (depth : Nat) (ds : List Descriptor)
  /-- Link a declared field to the type it refers to. -/
  | link (t : TypeId) (depth : Nat) (d : Descriptor) (target : TypeId)

namespace Compiler

/-- How types are expanded one level below a depth. -/
def below (c : Compiler) (depth : Nat) : Expansion := c.compileType (c.options.maxDepth - depth)

/-- The session that a task leaves behind, whether it succeeds or fails. -/
def after (c : Compiler) : Task → Session → Session
  | .compileType aliasName t depth, s =>
    ((c.compileType (c.options.maxDepth + 1 - depth) aliasName t depth).run s).2
  | .buildSchema aliasName t depth, s =>
    ((c.buildSchema (c.below depth) aliasName t depth).run s).2
  | .buildFields t depth ds, s => ((c.buildFields (c.below depth) t depth ds).run s).2
  | .link t depth d target, s =>
    ((c.link (c.below depth) depth (c.describe t d).name target).run s).2

/-- **The tasks that a task starts**, and the sessions from which it does. -/
inductive Starts (c : Compiler) : Task → Session → Task → Session → Prop
  | build {aliasName : String} {t : TypeId} {depth : Nat} {s : Session}
      (hdepth : depth ≤ c.options.maxDepth) :
      Starts c (.compileType aliasName t depth) s (.buildSchema aliasName t depth) (s.enter t)
  | fields {aliasName : String} {t : TypeId} {depth : Nat} {ds : List Descriptor} {s s' : Session}
      (h : (Walk.traced (c.introspect t)).run s = (.ok ds, s')) :
      Starts c (.buildSchema aliasName t depth) s (.buildFields t depth ds) s'
  | link {t u : TypeId} {depth : Nat} {d : Descriptor} {ds : List Descriptor} {s : Session}
      (ht : (c.describe t d).target? = some u) :
      Starts c (.buildFields t depth (d :: ds)) s (.link t depth d u) (c.described t d s)
  | next {t : TypeId} {depth : Nat} {d : Descriptor} {ds : List Descriptor} {s s' : Session}
      {f : Option Field} (h : (c.buildField (c.below depth) t depth d).run s = (.ok f, s')) :
      Starts c (.buildFields t depth (d :: ds)) s (.buildFields t depth ds) s'
  | expand {t u : TypeId} {depth : Nat} {d : Descriptor} {s : Session} (hu : s.cached? u = none)
      (hp : u ∉ s.path) :
      Starts c (.link t depth d u) s (.compileType (c.source.aliasFor u) u (depth + 1)) s

/-- **The tasks that are begun when the type of an alias is compiled**, with the sessions from which
they are. -/
inductive Begun (c : Compiler) (aliasName : String) : Task → Session → Prop
  | root {root : TypeId} (h : c.source.resolve aliasName = some root) :
      Begun c aliasName (.compileType aliasName root 0)
        (({} : Session).note [beginRecord aliasName root])
  | started {task task' : Task} {s s' : Session} (h : Begun c aliasName task s)
      (hs : c.Starts task s task' s') : Begun c aliasName task' s'

/-! ## What holds when a task is begun -/

/-- The path while a type is being built at a depth: **the types from that one back to the root,
each a target of the one behind it**, and none of them twice. -/
structure ChainTo (c : Compiler) (root t : TypeId) (depth : Nat) (path : List TypeId) : Prop where
  nodup : path.Nodup
  length : path.length = depth + 1
  innermost : path.head? = some t
  outermost : path.getLast? = some root
  targets : path.IsChain fun u v => u ∈ c.targets v

/-- Whether a task may be begun from a session.  **A type that is to be compiled is neither on the
path nor in the cache**, and with it the path is a chain; all other tasks are for the type that the
chain on the path leads to. -/
def MayBegin (c : Compiler) (root : TypeId) : Task → Session → Prop
  | .compileType _ t depth, s => s.cached? t = none ∧ c.ChainTo root t depth (t :: s.path)
  | .buildSchema _ t depth, s => depth ≤ c.options.maxDepth ∧ c.ChainTo root t depth s.path
  | .buildFields t depth ds, s => depth ≤ c.options.maxDepth ∧ c.ChainTo root t depth s.path ∧
      ∃ all, c.source.fields t = .ok all ∧ ∀ d ∈ ds, d ∈ all
  | .link t depth _ u, s => depth ≤ c.options.maxDepth ∧ c.ChainTo root t depth s.path ∧
      u ∈ c.targets t

end Compiler

namespace Session

/-- All pending types are known. -/
def Tracked (s : Session) : Prop := ∀ u ∈ s.pendingTypes, s.Knows u

/-- All types that were deferred are known: those that are pending, and the targets of all deferred
fields inside finished schemas. -/
structure Accounted (s : Session) : Prop where
  pending : s.Tracked
  deferred : ∀ t x, s.cached? t = some x → ∀ e ∈ x.deferrals 0, ∃ u, e.1 = some u ∧ s.Knows u

theorem Tracked.of_grows {s s' : Session} (h : s.Tracked) (hg : s.Grows s')
    (hq : s'.pendingTypes = s.pendingTypes) : s'.Tracked := by
  intro u hu
  rw [hq] at hu
  exact hg.knows u (h u hu)

end Session

namespace Compiler

variable {c : Compiler} {aliasName : String} {root t u : TypeId} {depth : Nat}
  {path : List TypeId} {d : Descriptor} {ds : List Descriptor} {s s' : Session} {fs : List Field}
  {task task' : Task}

/-! ## Chains -/

theorem ChainTo.single (c : Compiler) (root : TypeId) : c.ChainTo root root 0 [root] :=
  ⟨List.nodup_singleton root, rfl, rfl, rfl, List.IsChain.singleton root⟩

theorem ChainTo.eq_cons (h : c.ChainTo root t depth path) : ∃ rest, path = t :: rest := by
  cases path with
  | nil => cases h.innermost
  | cons v rest => exact ⟨rest, by rw [Option.some.inj h.innermost]⟩

/-- **A target that is not on the chain extends it.** -/
theorem ChainTo.push (h : c.ChainTo root t depth path) (hu : u ∈ c.targets t) (hp : u ∉ path) :
    c.ChainTo root u (depth + 1) (u :: path) := by
  obtain ⟨rest, rfl⟩ := h.eq_cons
  constructor
  case nodup => exact List.nodup_cons.mpr ⟨hp, h.nodup⟩
  case length => rw [List.length_cons, h.length]
  case innermost => rfl
  case outermost => rw [List.getLast?_cons_cons, h.outermost]
  case targets => exact List.isChain_cons_cons.mpr ⟨hu, h.targets⟩

theorem reaches_of_isChain (h : (t :: path).IsChain fun u v => u ∈ c.targets v) :
    ∀ v ∈ t :: path, Reaches c.Follows v t := by
  induction path generalizing t with
  | nil =>
    intro v hv
    rw [List.mem_singleton.mp hv]
    exact Reaches.refl t
  | cons w rest ih =>
    obtain ⟨htarget, hrest⟩ := List.isChain_cons_cons.mp h
    obtain ⟨d, hd⟩ := mem_targets.mp htarget
    intro v hv
    rcases List.mem_cons.mp hv with rfl | hv
    · exact Reaches.refl v
    · exact (ih hrest v hv).step hd

theorem ChainTo.reaches (h : c.ChainTo root t depth path) : ∀ v ∈ path, Reaches c.Follows v t := by
  obtain ⟨rest, rfl⟩ := h.eq_cons
  exact reaches_of_isChain h.targets

/-! ## Types that were deferred -/

/-- **A type that is deferred is on the path, so it is known.** -/
theorem tracked_deferring (h : s.Tracked) (hu : u ∈ s.path) :
    (c.deferring t d u depth s).Tracked := by
  intro v hv
  rw [knows_deferring]
  rcases (mem_pendingTypes_deferring d u v s).mp hv with hv | rfl
  · exact h v hv
  · exact Or.inl hu

theorem Builds.tracked (h : c.Builds t depth ds s fs s') (hs : s.Apart) (hq : s.Tracked) :
    s'.Tracked := by
  induction h with
  | nil => exact hq
  | ignored _ _ ih => exact ih hs hq
  | plain _ _ _ ih => exact ih hs hq
  | shared _ _ _ ih => exact ih hs hq
  | deferred _ _ hp _ ih => exact ih (apart_deferring hs _ _) (tracked_deferring hq hp)
  | expanded _ hu hp _ _ inside _ ihi ihr =>
    have hent := Session.Apart.enter hs hu
    have hin := inside.apart hent
    have hinside := ihi hent (hq.of_grows (grows_expanding _ _ _) rfl)
    refine ihr (hin.finish inside.path_eq hp _) (hinside.of_grows ?_ rfl)
    exact Session.Grows.finish hin inside.path_eq _

/-- **The types that are deferred inside finished schemas are known.** -/
theorem Sound.accounted (h : c.Sound s) (hq : s.Tracked) : s.Accounted := by
  refine ⟨hq, fun t x hx e he => ?_⟩
  obtain ⟨o, ho, f, hf, hd, rfl⟩ := (Schema.mem_deferrals (some t)).mp he
  obtain ⟨v, -, hv, -⟩ := h.occurrence hx o ho
  obtain ⟨ref, hl⟩ := Field.isDeferred_iff.mp hd
  obtain ⟨u, hu, -, hk, -, -⟩ := ((h.fills v o.schema hv).linked f hf).of_deferred hl
  exact ⟨u, object_of_target hu, hk⟩

/-! ## Sessions from which tasks are begun -/

/-- What holds of a session whenever a task is begun from it. -/
structure Invariant (c : Compiler) (root : TypeId) (task : Task) (s : Session) : Prop where
  sound : c.Sound s
  tracked : s.Tracked
  begins : c.MayBegin root task s

theorem buildField_keeps {f : Option Field} (hdepth : depth ≤ c.options.maxDepth)
    (hr : c.Ready s t [d]) (hq : s.Tracked)
    (h : (c.buildField (c.below depth) t depth d).run s = (.ok f, s')) :
    c.Sound s' ∧ s'.Tracked ∧ s'.path = s.path := by
  have hexp : c.ExpandsAt (depth + 1) (c.below depth) := compileType_expands (by omega)
  have hb : c.Builds t depth [d] s (f.toList ++ []) s' := Builds.cons hexp h Builds.nil
  exact ⟨(hb.sound hr).1, hb.tracked hr.sound.apart hq, hb.path_eq⟩

/-- **Every task that is started is started from a session that may begin it.** -/
theorem Starts.invariant (h : c.Starts task s task' s') (hi : c.Invariant root task s) :
    c.Invariant root task' s' := by
  obtain ⟨hs, hq, hbegins⟩ := hi
  cases h with
  | @build _ t _ _ hdepth =>
    -- The type comes onto the path, so it must not be in the cache.
    obtain ⟨hu, hchain⟩ := hbegins
    have hg := Session.Grows.enter s t
    have ha := Session.Apart.enter hs.apart hu
    exact ⟨hs.of_cached_eq hg ha fun _ => rfl, hq.of_grows hg rfl, hdepth, hchain⟩
  | @fields _ t _ ds _ _ h =>
    obtain ⟨hdepth, hchain⟩ := hbegins
    obtain ⟨hfields, rfl⟩ := Walk.introspect_ok h
    have hg : s.Grows (s.called t) := Session.Grows.of_eq rfl rfl rfl
    have hcalled := hs.of_cached_eq hg hs.apart fun _ => rfl
    exact ⟨hcalled, hq, hdepth, hchain, ds, hfields, fun _ hd => hd⟩
  | link ht =>
    obtain ⟨hdepth, hchain, all, hfields, hds⟩ := hbegins
    have htarget := mem_targets.mpr ⟨_, ⟨all, hfields, hds _ List.mem_cons_self⟩, ht⟩
    exact ⟨hs.described _ _, hq, hdepth, hchain, htarget⟩
  | next h =>
    obtain ⟨hdepth, hchain, all, hfields, hds⟩ := hbegins
    obtain ⟨hd, hrest⟩ := List.forall_mem_cons.mp hds
    -- The types on the chain lead here, which makes the session ready for this one field.
    have hr : c.Ready s _ [_] :=
      ⟨hs, ⟨all, hfields, List.forall_mem_singleton.mpr hd⟩, hchain.reaches⟩
    obtain ⟨hs', hq', hpath⟩ := buildField_keeps hdepth hr hq h
    exact ⟨hs', hq', hdepth, by rw [hpath]; exact hchain, all, hfields, hrest⟩
  | expand hu hp =>
    obtain ⟨-, hchain, htarget⟩ := hbegins
    exact ⟨hs, hq, hu, hchain.push htarget hp⟩

/-- **The session of a walk is well formed whenever a task is begun.** -/
theorem Begun.invariant (h : c.Begun aliasName task s) :
    ∃ root, c.source.resolve aliasName = some root ∧ c.Invariant root task s := by
  induction h with
  | @root root hroot =>
    refine ⟨root, hroot, Sound.of_cache_eq_nil rfl, ?_, rfl, ChainTo.single c root⟩
    exact fun u hu => absurd hu List.not_mem_nil
  | started _ hs ih =>
    obtain ⟨root, hroot, hi⟩ := ih
    exact ⟨root, hroot, hs.invariant hi⟩

end Compiler

end SchemaTree
