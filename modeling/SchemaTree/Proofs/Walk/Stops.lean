import SchemaTree.Proofs.Walk.Builds

/-!
# What a walk that fails does

A walk fails in one type, and it has come there through a chain of types, each the target of a
field of the one before.  `Compiler.Stops` relates a type in which a walk fails to the error and
to the sessions before and after.  Its three rules are the three ways to fail:

* the declared fields of the type are *unreadable*;
* the walk comes to a field whose type would be *too deep*;
* it comes to a field whose type is built one level deeper, and fails *inside* that.

In the last two the fields before have been built as `Compiler.Builds` says
(`Compiler.ComesTo`).  `Compiler.compileType_stops` says that a walk fails in no other way.  A fact
about walks that fail is an induction over these rules, that is along the chain, and what
happened beside the chain is known from the walks that succeed.
-/

namespace SchemaTree

namespace Compiler

/-- A walk that enters a type at a depth **comes to a field whose type it has to expand**: it has
built the fields before that one, and the type is neither finished nor being built. -/
structure ComesTo (c : Compiler) (t : TypeId) (depth : Nat) (s : Session)
    (before : List Descriptor) (d : Descriptor) (after : List Descriptor) (u : TypeId)
    (s₁ : Session) : Prop where
  fields : c.source.fields t = .ok (before ++ d :: after)
  builds : ∃ fs, c.Builds t depth before ((s.enter t).called t) fs s₁
  target : (c.describe t d).target? = some u
  unfinished : s₁.cached? u = none
  new : u ∉ s₁.path

/-- **How a walk fails in a type at a depth**, and the sessions before and after. -/
inductive Stops (c : Compiler) : TypeId → Nat → Session → CompileError → Session → Prop
  | unreadable {t : TypeId} {depth : Nat} {s : Session} {reason : String}
      (hfields : c.source.fields t = .error reason) :
      Stops c t depth s (.introspection t reason) ((s.enter t).called t).leave
  | tooDeep {t : TypeId} {depth : Nat} {s s₁ : Session} {before after : List Descriptor}
      {d : Descriptor} {u : TypeId} (h : c.ComesTo t depth s before d after u s₁)
      (hdepth : depth = c.options.maxDepth) :
      Stops c t depth s (.depthExceeded (c.source.aliasFor u) (depth + 1) c.options.maxDepth)
        (c.described t d s₁).leave
  | inside {t : TypeId} {depth : Nat} {s s₁ s₂ : Session} {before after : List Descriptor}
      {d : Descriptor} {u : TypeId} {e : CompileError}
      (h : c.ComesTo t depth s before d after u s₁)
      (stops : Stops c u (depth + 1) (c.described t d s₁) e s₂) : Stops c t depth s e s₂.leave

variable {c : Compiler} {expand : Expansion} {t : TypeId} {depth : Nat} {s s' : Session}
  {e : CompileError}

/-- **Fields fail to be built at the first one whose target fails to be expanded**; those before it
are built. -/
theorem buildFields_error (hexp : c.ExpandsAt (depth + 1) expand) {ds : List Descriptor}
    (h : (c.buildFields expand t depth ds).run s = (.error e, s')) :
    ∃ before d after u s₁, ds = before ++ d :: after ∧ (∃ fs, c.Builds t depth before s fs s₁) ∧
      (c.describe t d).target? = some u ∧ s₁.cached? u = none ∧ u ∉ s₁.path ∧
      (expand (c.source.aliasFor u) u (depth + 1)).run (c.described t d s₁) = (.error e, s') := by
  induction ds generalizing s with
  | nil => exact (Stateful.pure_error h).elim
  | cons d ds ih =>
    rcases Stateful.bind_error h with h | ⟨f, s₁, hf, h⟩
    · obtain ⟨u, ht, hl⟩ := buildField_error h
      obtain ⟨hu, hp, hexpand⟩ := link_error hl
      exact ⟨[], d, ds, u, s, rfl, ⟨[], Builds.nil⟩, ht, hu, hp, hexpand⟩
    · rcases Stateful.bind_error h with h | ⟨_, _, _, h⟩
      · obtain ⟨before, d', after, u, s₂, rfl, ⟨fs, hb⟩, hrest⟩ := ih h
        exact ⟨d :: before, d', after, u, s₂, rfl, ⟨_, Builds.cons hexp hf hb⟩, hrest⟩
      · exact (Stateful.pure_error h).elim

theorem buildSchema_error (hexp : c.ExpandsAt (depth + 1) expand) {aliasName : String}
    (h : (c.buildSchema expand aliasName t depth).run (s.enter t) = (.error e, s')) :
    (∃ reason, c.source.fields t = .error reason ∧ e = .introspection t reason ∧
      s' = (s.enter t).called t) ∨
    ∃ before d after u s₁, c.ComesTo t depth s before d after u s₁ ∧
      (expand (c.source.aliasFor u) u (depth + 1)).run (c.described t d s₁) = (.error e, s') := by
  rcases Stateful.bind_error h with hintro | ⟨inner, s₂, hintro, h⟩
  · exact Or.inl (Walk.introspect_error hintro)
  · obtain ⟨hfields, rfl⟩ := Walk.introspect_ok hintro
    rcases Stateful.bind_error h with hbuild | ⟨_, _, _, hpure⟩
    · obtain ⟨before, d, after, u, s₁, rfl, hb, ht, hu, hp, hexpand⟩ :=
        buildFields_error hexp hbuild
      exact Or.inr ⟨before, d, after, u, s₁, ⟨hfields, hb, ht, hu, hp⟩, hexpand⟩
    · exact (Stateful.pure_error hpure).elim

theorem compileType_error {room : Nat} (hroom : depth + room = c.options.maxDepth)
    {aliasName : String} (h : (c.compileType (room + 1) aliasName t depth).run s = (.error e, s')) :
    (∃ reason, c.source.fields t = .error reason ∧ e = .introspection t reason ∧
      s' = ((s.enter t).called t).leave) ∨
    ∃ before d after u s₁ s₂, c.ComesTo t depth s before d after u s₁ ∧ s' = s₂.leave ∧
      (c.compileType room (c.source.aliasFor u) u (depth + 1)).run (c.described t d s₁) =
        (.error e, s₂) := by
  have hexp : c.ExpandsAt (depth + 1) (c.compileType room) := compileType_expands (by omega)
  obtain ⟨s₂, hbody, rfl⟩ := Walk.building_eq h
  rcases buildSchema_error hexp hbody with ⟨reason, hfields, he, rfl⟩ |
    ⟨before, d, after, u, s₁, hcomes, hexpand⟩
  · exact Or.inl ⟨reason, hfields, he, rfl⟩
  · exact Or.inr ⟨before, d, after, u, s₁, s₂, hcomes, rfl, hexpand⟩

/-- **A walk that fails in a type fails as the rules say.** -/
theorem compileType_stops {room : Nat} (hroom : depth + room = c.options.maxDepth)
    {aliasName : String} (h : (c.compileType (room + 1) aliasName t depth).run s = (.error e, s')) :
    c.Stops t depth s e s' := by
  induction room generalizing aliasName t depth s s' with
  | zero =>
    rcases compileType_error hroom h with ⟨reason, hfields, rfl, rfl⟩ |
      ⟨before, d, after, u, s₁, s₂, hcomes, rfl, hexpand⟩
    · exact Stops.unreadable hfields
    · obtain ⟨rfl, rfl⟩ := Stateful.throw_error hexpand
      exact Stops.tooDeep hcomes hroom
  | succ room ih =>
    rcases compileType_error hroom h with ⟨reason, hfields, rfl, rfl⟩ |
      ⟨before, d, after, u, s₁, s₂, hcomes, rfl, hexpand⟩
    · exact Stops.unreadable hfields
    · exact Stops.inside hcomes (ih (by omega) hexpand)

/-- **A walk from a type that fails, fails in that type at depth 0.** -/
theorem walkFrom_stops {aliasName : String} (h : c.walkFrom aliasName t = (.error e, s')) :
    c.Stops t 0 (({} : Session).note [beginRecord aliasName t]) e s' :=
  compileType_stops (Nat.zero_add _) h

end Compiler

end SchemaTree
