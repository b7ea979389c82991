import SchemaTree.Proofs.Walk.Session

/-!
# What a successful walk does

`Compiler.Builds` relates the declared fields of a type to the fields that a walk
makes of them and to the sessions before and after.  It has one rule for each of the
things that can happen to a field:

* it is *ignored*, or it is *plain*, which means that it refers to no type;
* the type it refers to is *shared*: its schema is finished and in the cache;
* it is *deferred*, since the type it refers to is on the path;
* its type is *expanded*: built one level deeper, then kept in the cache.

`Compiler.compileType_expands` and `Compiler.walkFrom_builds` say that the walk does
nothing else.  Every fact about successful walks is an induction over these rules; no
later proof opens the walk itself.  What a walk does with a single field, whether it succeeds or
not, is said once, in `link_run` and `buildField_run`.
-/

namespace SchemaTree

namespace Compiler

/-- The session after the handlers have run over a declared field. -/
def described (c : Compiler) (owner : TypeId) (d : Descriptor) (s : Session) : Session :=
  s.note (c.describeRun owner d).log

/-- The session after a field that closes a cycle was deferred. -/
def deferring (c : Compiler) (owner : TypeId) (d : Descriptor) (target : TypeId) (depth : Nat)
    (s : Session) : Session :=
  let s := c.described owner d s
  (s.note [s.cycleRecord target (c.describe owner d).name depth]).defer target depth

/-- The schema of a type that is not the root, with given fields. -/
def finished (c : Compiler) (t : TypeId) (fields : List Field) : Schema :=
  .mk (c.heading (c.source.aliasFor t) t) fields

/-- **What a walk that succeeds makes of the declared fields of a type at a depth**, and the
sessions before and after. -/
inductive Builds (c : Compiler) :
    TypeId → Nat → List Descriptor → Session → List Field → Session → Prop
  | nil {t : TypeId} {depth : Nat} {s : Session} : Builds c t depth [] s [] s
  | ignored {t : TypeId} {depth : Nat} {d : Descriptor} {ds : List Descriptor}
      {s s' : Session} {fs : List Field}
      (hd : (c.describe t d).ignored = true)
      (rest : Builds c t depth ds (c.described t d s) fs s') :
      Builds c t depth (d :: ds) s fs s'
  | plain {t : TypeId} {depth : Nat} {d : Descriptor} {ds : List Descriptor}
      {s s' : Session} {fs : List Field}
      (hd : (c.describe t d).ignored = false) (ht : (c.describe t d).target? = none)
      (rest : Builds c t depth ds (c.described t d s) fs s') :
      Builds c t depth (d :: ds) s (.ofProperty (c.describe t d) :: fs) s'
  | shared {t : TypeId} {depth : Nat} {d : Descriptor} {ds : List Descriptor}
      {s s' : Session} {fs : List Field} {u : TypeId} {sub : Schema}
      (ht : (c.describe t d).target? = some u) (hu : s.cached? u = some sub)
      (rest : Builds c t depth ds (c.described t d s) fs s') :
      Builds c t depth (d :: ds) s (.mk (c.describe t d) (.nested sub) :: fs) s'
  | deferred {t : TypeId} {depth : Nat} {d : Descriptor} {ds : List Descriptor}
      {s s' : Session} {fs : List Field} {u : TypeId}
      (ht : (c.describe t d).target? = some u) (hu : s.cached? u = none) (hp : u ∈ s.path)
      (rest : Builds c t depth ds (c.deferring t d u depth s) fs s') :
      Builds c t depth (d :: ds) s
        (.mk (c.describe t d) (.deferred (c.referenceTo u)) :: fs) s'
  | expanded {t : TypeId} {depth : Nat} {d : Descriptor} {ds inner : List Descriptor}
      {s s₁ s' : Session} {fs sub : List Field} {u : TypeId}
      (ht : (c.describe t d).target? = some u) (hu : s.cached? u = none) (hp : u ∉ s.path)
      (hdepth : depth + 1 ≤ c.options.maxDepth) (hfields : c.source.fields u = .ok inner)
      (inside : Builds c u (depth + 1) inner (((c.described t d s).enter u).called u) sub s₁)
      (rest : Builds c t depth ds (s₁.leave.keep u (c.finished u sub)) fs s') :
      Builds c t depth (d :: ds) s
        (.mk (c.describe t d) (.nested (c.finished u sub)) :: fs) s'

/-- An expansion of types at a depth that does what `Builds` says. -/
def ExpandsAt (c : Compiler) (depth : Nat) (expand : Expansion) : Prop :=
  ∀ aliasName u s schema s', (expand aliasName u depth).run s = (.ok schema, s') →
    depth ≤ c.options.maxDepth ∧ ∃ inner sub s₁, c.source.fields u = .ok inner ∧
      c.Builds u depth inner ((s.enter u).called u) sub s₁ ∧
      schema = .mk (c.heading aliasName u) sub ∧ s' = s₁.leave

variable {c : Compiler} {expand : Expansion} {t : TypeId} {depth : Nat}

@[simp] theorem path_described (d : Descriptor) (s : Session) :
    (c.described t d s).path = s.path := rfl

@[simp] theorem cached?_described (d : Descriptor) (s : Session) (u : TypeId) :
    (c.described t d s).cached? u = s.cached? u := rfl

@[simp] theorem pending_described (d : Descriptor) (s : Session) :
    (c.described t d s).pending = s.pending := rfl

@[simp] theorem path_deferring (d : Descriptor) (u : TypeId) (s : Session) :
    (c.deferring t d u depth s).path = s.path := by
  simp [deferring]

@[simp] theorem cached?_deferring (d : Descriptor) (u v : TypeId) (s : Session) :
    (c.deferring t d u depth s).cached? v = s.cached? v := by
  simp [deferring]

theorem mem_pendingTypes_deferring (d : Descriptor) (u v : TypeId) (s : Session) :
    v ∈ (c.deferring t d u depth s).pendingTypes ↔ v ∈ s.pendingTypes ∨ v = u :=
  Session.mem_pendingTypes_defer _ u v depth

theorem link_run (field : String) (u : TypeId) (s : Session) :
    (∃ sub, s.cached? u = some sub ∧
      (c.link expand depth field u).run s = (pure (.nested sub) : Walk Link).run s) ∨
    (s.cached? u = none ∧ u ∈ s.path ∧ (c.link expand depth field u).run s = (do
      set ((s.note [s.cycleRecord u field depth]).defer u depth)
      return .deferred (c.referenceTo u) : Walk Link).run s) ∨
    (s.cached? u = none ∧ u ∉ s.path ∧ (c.link expand depth field u).run s = (do
      let schema ← expand (c.source.aliasFor u) u (depth + 1)
      modify (·.keep u schema)
      return .nested schema : Walk Link).run s) := by
  cases hc : s.cached? u with
  | some sub => exact Or.inl ⟨sub, rfl, by simp only [link, Stateful.run_get_bind, hc]⟩
  | none =>
    by_cases hp : u ∈ s.path
    · exact Or.inr (Or.inl ⟨rfl, hp, by simp only [link, Stateful.run_get_bind, hc, if_pos hp]⟩)
    · exact Or.inr (Or.inr ⟨rfl, hp, by simp only [link, Stateful.run_get_bind, hc, if_neg hp]⟩)

theorem link_ok {s s' : Session} {field : String} {u : TypeId} {l : Link}
    (h : (c.link expand depth field u).run s = (.ok l, s')) :
    (∃ sub, s.cached? u = some sub ∧ l = .nested sub ∧ s' = s) ∨
    (s.cached? u = none ∧ u ∈ s.path ∧ l = .deferred (c.referenceTo u) ∧
      s' = (s.note [s.cycleRecord u field depth]).defer u depth) ∨
    (s.cached? u = none ∧ u ∉ s.path ∧ ∃ schema s₁,
      (expand (c.source.aliasFor u) u (depth + 1)).run s = (.ok schema, s₁) ∧
      l = .nested schema ∧ s' = s₁.keep u schema) := by
  rcases link_run field u s with ⟨sub, hc, hrun⟩ | ⟨hc, hp, hrun⟩ | ⟨hc, hp, hrun⟩
  · obtain ⟨rfl, rfl⟩ := Stateful.pure_ok (hrun.symm.trans h)
    exact Or.inl ⟨sub, hc, rfl, rfl⟩
  · obtain ⟨_, s₂, hset, h₂⟩ := Stateful.bind_ok (hrun.symm.trans h)
    obtain rfl := Stateful.set_ok hset
    obtain ⟨rfl, rfl⟩ := Stateful.pure_ok h₂
    exact Or.inr (Or.inl ⟨hc, hp, rfl, rfl⟩)
  · obtain ⟨schema, s₂, hexp, h₂⟩ := Stateful.bind_ok (hrun.symm.trans h)
    obtain ⟨_, s₃, hmod, h₃⟩ := Stateful.bind_ok h₂
    obtain rfl := Stateful.modify_ok hmod
    obtain ⟨rfl, rfl⟩ := Stateful.pure_ok h₃
    exact Or.inr (Or.inr ⟨hc, hp, schema, s₂, hexp, rfl, rfl⟩)

theorem link_error {s s' : Session} {field : String} {u : TypeId} {e : CompileError}
    (h : (c.link expand depth field u).run s = (.error e, s')) :
    s.cached? u = none ∧ u ∉ s.path ∧
      (expand (c.source.aliasFor u) u (depth + 1)).run s = (.error e, s') := by
  rcases link_run field u s with ⟨sub, hc, hrun⟩ | ⟨hc, hp, hrun⟩ | ⟨hc, hp, hrun⟩
  · exact (Stateful.pure_error (hrun.symm.trans h)).elim
  · rcases Stateful.bind_error (hrun.symm.trans h) with h | ⟨_, _, _, h⟩
    · exact (Stateful.set_error h).elim
    · exact (Stateful.pure_error h).elim
  · rcases Stateful.bind_error (hrun.symm.trans h) with h | ⟨_, _, _, h⟩
    · exact ⟨hc, hp, h⟩
    · rcases Stateful.bind_error h with h | ⟨_, _, _, h⟩
      · exact (Stateful.modify_error h).elim
      · exact (Stateful.pure_error h).elim

theorem buildField_run (d : Descriptor) (s : Session) :
    ((c.describe t d).ignored = true ∧ (c.buildField expand t depth d).run s =
      (pure none : Walk (Option Field)).run (c.described t d s)) ∨
    ((c.describe t d).ignored = false ∧ (c.describe t d).target? = none ∧
      (c.buildField expand t depth d).run s =
        (pure (some (.ofProperty (c.describe t d))) : Walk (Option Field)).run
          (c.described t d s)) ∨
    ∃ u, (c.describe t d).target? = some u ∧ (c.buildField expand t depth d).run s = (do
      let l ← c.link expand depth (c.describe t d).name u
      return some (.mk (c.describe t d) l) : Walk (Option Field)).run (c.described t d s) := by
  cases hi : (c.describe t d).ignored with
  | true =>
    refine Or.inl ⟨rfl, ?_⟩
    simp only [buildField, Stateful.run_modify_bind, hi, if_true, described]
  | false =>
    refine Or.inr ?_
    cases ht : (c.describe t d).target? with
    | none =>
      refine Or.inl ⟨rfl, rfl, ?_⟩
      simp only [buildField, Stateful.run_modify_bind, hi, ht, Bool.false_eq_true, if_false,
        described]
    | some u =>
      refine Or.inr ⟨u, rfl, ?_⟩
      simp only [buildField, Stateful.run_modify_bind, hi, ht, Bool.false_eq_true, if_false,
        described]

theorem buildField_ok {s s' : Session} {d : Descriptor} {f : Option Field}
    (h : (c.buildField expand t depth d).run s = (.ok f, s')) :
    ((c.describe t d).ignored = true ∧ f = none ∧ s' = c.described t d s) ∨
    ((c.describe t d).ignored = false ∧ (c.describe t d).target? = none ∧
      f = some (.ofProperty (c.describe t d)) ∧ s' = c.described t d s) ∨
    ∃ u l, (c.describe t d).target? = some u ∧ f = some (.mk (c.describe t d) l) ∧
      (c.link expand depth (c.describe t d).name u).run (c.described t d s) = (.ok l, s') := by
  rcases buildField_run d s with ⟨hi, hrun⟩ | ⟨hi, ht, hrun⟩ | ⟨u, ht, hrun⟩
  · obtain ⟨rfl, rfl⟩ := Stateful.pure_ok (hrun.symm.trans h)
    exact Or.inl ⟨hi, rfl, rfl⟩
  · obtain ⟨rfl, rfl⟩ := Stateful.pure_ok (hrun.symm.trans h)
    exact Or.inr (Or.inl ⟨hi, ht, rfl, rfl⟩)
  · obtain ⟨l, s₂, hl, h⟩ := Stateful.bind_ok (hrun.symm.trans h)
    obtain ⟨rfl, rfl⟩ := Stateful.pure_ok h
    exact Or.inr (Or.inr ⟨u, l, ht, rfl, hl⟩)

theorem buildField_error {s s' : Session} {d : Descriptor} {e : CompileError}
    (h : (c.buildField expand t depth d).run s = (.error e, s')) :
    ∃ u, (c.describe t d).target? = some u ∧
      (c.link expand depth (c.describe t d).name u).run (c.described t d s) = (.error e, s') := by
  rcases buildField_run d s with ⟨hi, hrun⟩ | ⟨hi, ht, hrun⟩ | ⟨u, ht, hrun⟩
  · exact (Stateful.pure_error (hrun.symm.trans h)).elim
  · exact (Stateful.pure_error (hrun.symm.trans h)).elim
  · rcases Stateful.bind_error (hrun.symm.trans h) with h | ⟨_, _, _, h⟩
    · exact ⟨u, ht, h⟩
    · exact (Stateful.pure_error h).elim

theorem Builds.cons (hexp : c.ExpandsAt (depth + 1) expand) {d : Descriptor}
    {ds : List Descriptor} {s s₁ s' : Session} {f : Option Field} {fs : List Field}
    (hf : (c.buildField expand t depth d).run s = (.ok f, s₁))
    (rest : c.Builds t depth ds s₁ fs s') :
    c.Builds t depth (d :: ds) s (f.toList ++ fs) s' := by
  rcases buildField_ok hf with ⟨hi, rfl, rfl⟩ | ⟨hi, ht, rfl, rfl⟩ | ⟨u, l, ht, rfl, hl⟩
  · exact Builds.ignored hi rest
  · exact Builds.plain hi ht rest
  · rcases link_ok hl with ⟨sub, hu, rfl, rfl⟩ | ⟨hu, hp, rfl, rfl⟩ |
      ⟨hu, hp, schema, s₃, hexpand, rfl, rfl⟩
    · exact Builds.shared ht hu rest
    · exact Builds.deferred ht hu hp rest
    · obtain ⟨hdepth, inner, sub, s₄, hfields, inside, rfl, rfl⟩ := hexp _ _ _ _ _ hexpand
      exact Builds.expanded ht hu hp hdepth hfields inside rest

/-- **Building fields does what the rules say**, if expanding types does. -/
theorem buildFields_builds (hexp : c.ExpandsAt (depth + 1) expand) {ds : List Descriptor}
    {s s' : Session} {fs : List Field}
    (h : (c.buildFields expand t depth ds).run s = (.ok fs, s')) :
    c.Builds t depth ds s fs s' := by
  induction ds generalizing s fs with
  | nil =>
    obtain ⟨rfl, rfl⟩ := Stateful.pure_ok h
    exact Builds.nil
  | cons d ds ih =>
    obtain ⟨f, s₁, hf, h⟩ := Stateful.bind_ok h
    obtain ⟨fs', s₂, hfs, h⟩ := Stateful.bind_ok h
    obtain ⟨rfl, rfl⟩ := Stateful.pure_ok h
    exact Builds.cons hexp hf (ih hfs)

/-- **Compiling a type does what the rules say**, as far as there is room below the limit of
depth. -/
theorem compileType_expands {room : Nat} (hroom : depth + room = c.options.maxDepth + 1) :
    c.ExpandsAt depth (c.compileType room) := by
  induction room generalizing depth with
  | zero =>
    intro aliasName u s schema s' h
    exact (Stateful.throw_ok h).elim
  | succ room ih =>
    intro aliasName u s schema s' h
    obtain ⟨s₁, hbody, rfl⟩ := Walk.building_eq h
    obtain ⟨inner, s₂, hintro, hbody⟩ := Stateful.bind_ok hbody
    obtain ⟨hfields, rfl⟩ := Walk.introspect_ok hintro
    obtain ⟨sub, s₃, hbuild, hbody⟩ := Stateful.bind_ok hbody
    obtain ⟨rfl, rfl⟩ := Stateful.pure_ok hbody
    refine ⟨by omega, inner, sub, s₁, hfields, ?_, rfl, rfl⟩
    exact buildFields_builds (ih (by omega)) hbuild

/-- **A walk from a type that succeeds builds the declared fields of that type at depth 0.** -/
theorem walkFrom_builds {aliasName : String} {schema : Schema} {s' : Session}
    (h : c.walkFrom aliasName t = (.ok schema, s')) :
    ∃ inner fs s₀ s₁, c.source.fields t = .ok inner ∧ c.Builds t 0 inner s₀ fs s₁ ∧
      schema = .mk (c.heading aliasName t) fs ∧ s' = s₁.leave ∧
      s₀.path = [t] ∧ s₀.cache = [] ∧ s₀.pending = [] := by
  obtain ⟨-, inner, fs, s₁, hfields, hb, hs, hs'⟩ :=
    compileType_expands (Nat.zero_add _) _ _ _ _ _ h
  exact ⟨inner, fs, _, s₁, hfields, hb, hs, hs', rfl, rfl, rfl⟩

theorem report_of_walk {aliasName : String} (ht : c.source.resolve aliasName = some t) :
    (∃ x s, c.walkFrom aliasName t = (.ok x, s) ∧
      c.report aliasName = (.ok ⟨x, s.pending⟩, (s.note [endRecord aliasName s]).trace)) ∨
    ∃ e s, c.walkFrom aliasName t = (.error e, s) ∧ c.report aliasName = (.error e, s.trace) := by
  cases hw : c.walkFrom aliasName t with
  | mk result s =>
    cases result with
    | ok x => exact Or.inl ⟨x, s, rfl, by simp only [report, ht, hw]⟩
    | error e => exact Or.inr ⟨e, s, rfl, by simp only [report, ht, hw]⟩

end Compiler

end SchemaTree
