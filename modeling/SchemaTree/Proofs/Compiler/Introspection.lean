import SchemaTree.Proofs.Catalog.Accepted
import SchemaTree.Proofs.Handlers.Standard
import SchemaTree.Proofs.Walk.Calls

/-!
# Which types are introspected

Compiling introspects types in depth-first order, from the type of the alias on, and **none of
them twice**.  This holds for all sources of types, also for infinite ones, and for all
handlers.

* `Exploring.exhausted`: when the root is finished, no type has an unvisited target.
* `report_calls`: the order, and where it ends.  **A report has introspected exactly the types
  that its root leads to.**
-/

namespace SchemaTree

namespace Compiler

variable {c : Compiler} {t : TypeId} {s : Session} {aliasName : String}

/-- The session from which the walk from a type starts. -/
def begun (aliasName : String) (t : TypeId) : Session :=
  ({} : Session).note [beginRecord aliasName t]

theorem explored_begun : c.Explored (begun aliasName t) := by
  constructor
  · intro v
    constructor
    · rintro (hpath | hcached)
      · exact absurd hpath List.not_mem_nil
      · cases hcached
    · exact fun hv => absurd hv List.not_mem_nil
  · exact fun v hv => absurd hv List.not_mem_nil

/-- When all fields of the root were looked at, **no type has an unvisited target**. -/
theorem Exploring.exhausted (h : c.Exploring t t [] [] s) :
    ∀ w ∈ s.calls, Exhausted c.targets s.calls w := by
  obtain ⟨after, done, hsplit, hafter, htargets, hdone⟩ := h.position
  intro w hw
  have hmem : w = t ∨ w ∈ after := by
    rw [hsplit, List.nil_append] at hw
    exact List.mem_cons.mp hw
  rcases hmem with rfl | hmem
  · intro v hv
    rw [htargets] at hv
    exact hdone v (by simpa [targetsAmong] using hv)
  · exact hafter w hmem

theorem mem_of_reaches {visited : List TypeId} (ht : t ∈ visited)
    (hclosed : ∀ w ∈ visited, Exhausted c.targets visited w) {u : TypeId}
    (hu : Reaches c.Follows t u) : u ∈ visited := by
  refine hu.induction (P := (· ∈ visited)) ht ?_
  intro r hr howner
  exact hclosed r.owner howner r.target (mem_targets.mpr ⟨r.field, hr⟩)

/-- **A walk that succeeds has introspected types in depth-first order**, and is done with them. -/
theorem walkFrom_explores {x : Schema} {s' : Session}
    (h : c.walkFrom aliasName t = (.ok x, s')) :
    DepthFirst c.targets t s'.calls ∧ ∀ w ∈ s'.calls, Exhausted c.targets s'.calls w := by
  obtain ⟨-, inner, sub, s₁, hfields, hb, -, rfl⟩ :=
    compileType_expands (Nat.zero_add _) _ _ _ _ _ h
  have hbegun : c.Explored (begun aliasName t) := explored_begun
  have hstart := hbegun.enter hfields DepthFirst.root
  rw [← List.append_nil inner] at hstart
  have hend := hb.explores hstart
  exact ⟨hend.order, hend.exhausted⟩

/-- **Compiling introspects types in depth-first order.**  When it succeeds no type has an unvisited
target, and when it fails the order ends where it fails. -/
theorem report_explores (ht : c.source.resolve aliasName = some t) :
    DepthFirst c.targets t (c.report aliasName).2.calls ∧
    (∀ r, (c.report aliasName).1 = .ok r → ∀ w ∈ (c.report aliasName).2.calls,
      Exhausted c.targets (c.report aliasName).2.calls w) ∧
    ∀ e, (c.report aliasName).1 = .error e → c.EndsWith (c.report aliasName).2.calls e := by
  rcases report_of_walk ht with ⟨x, s', hw, hr⟩ | ⟨e, s', hw, hr⟩
  · obtain ⟨horder, hclosed⟩ := walkFrom_explores hw
    rw [hr]
    refine ⟨horder, fun _ _ => hclosed, ?_⟩
    intro e he
    cases he
  · obtain ⟨horder, hends⟩ := (walkFrom_stops hw).explores explored_begun DepthFirst.root
    rw [hr]
    refine ⟨horder, ?_, ?_⟩
    · intro r hr
      cases hr
    · intro e' he'
      cases he'
      exact hends

/-- **Each type is introspected at most once**, in depth-first order from the type of the alias on.
A report has introspected exactly the types that this one leads to.  If a type cannot be
introspected it is the last, and none before it failed; if a type would be too deep, it is the one
that would have come next. -/
theorem report_calls (c : Compiler) (aliasName : String) :
    (c.report aliasName).2.calls.Nodup ∧
    (c.source.resolve aliasName = none → (c.report aliasName).2.calls = []) ∧
    ∀ root, c.source.resolve aliasName = some root →
      DepthFirst c.targets root (c.report aliasName).2.calls ∧
      (∀ r, (c.report aliasName).1 = .ok r →
        ∀ u, u ∈ (c.report aliasName).2.calls ↔ Reaches c.Follows root u) ∧
      (∀ t reason, (c.report aliasName).1 = .error (.introspection t reason) →
        c.source.fields t = .error reason ∧
        ∃ before, (c.report aliasName).2.calls = before ++ [t] ∧
          ∀ v ∈ before, ∃ ds, c.source.fields v = .ok ds) ∧
      ∀ a depth limit, (c.report aliasName).1 = .error (.depthExceeded a depth limit) →
        ∃ u, a = c.source.aliasFor u ∧ VisitsNext c.targets (c.report aliasName).2.calls u ∧
          ∀ v ∈ (c.report aliasName).2.calls, ∃ ds, c.source.fields v = .ok ds := by
  have hnone : c.source.resolve aliasName = none → (c.report aliasName).2.calls = [] := by
    intro h
    rw [report, h]
  refine ⟨?_, hnone, fun root hroot => ?_⟩
  · cases hroot : c.source.resolve aliasName with
    | none =>
      rw [hnone hroot]
      exact List.nodup_nil
    | some root => exact (report_explores hroot).1.nodup
  · obtain ⟨horder, hreport, hends⟩ := report_explores hroot
    refine ⟨horder, fun r hr u => ⟨reaches_of_depthFirst horder u, ?_⟩, ?_, ?_⟩
    · exact mem_of_reaches horder.root_mem (hreport r hr)
    · exact fun t reason he => (hends _ he).of_introspection
    · exact fun a depth limit he => (hends _ he).of_depthExceeded

/-- A source in which `a` refers to `b` and `b` to `c`, which cannot be introspected. -/
def brokenChain : TypeSource where
  resolve := fun aliasName => some ⟨aliasName⟩
  aliasOf := fun t => some t.name
  fields := fun t =>
    if t = ⟨"a"⟩ then .ok [{ name := "next", shape := .entity ⟨"b"⟩ }]
    else if t = ⟨"b"⟩ then .ok [{ name := "next", shape := .collection (.entity ⟨"c"⟩) }]
    else .error "no definition"

/-- A shared type and a cycle; a type that cannot be introspected; the same one under a limit that
keeps it out. -/
theorem report_calls_sample :
    (∃ r, ((ofCatalog Catalog.sample defaultBase {}).report "order").1 = .ok r ∧
      ((ofCatalog Catalog.sample defaultBase {}).report "order").2.calls =
        [⟨"order"⟩, ⟨"customer"⟩, ⟨"Item"⟩] ∧
      ∀ u, u ∈ ((ofCatalog Catalog.sample defaultBase {}).report "order").2.calls ↔
        Reaches (ofCatalog Catalog.sample defaultBase {}).Follows ⟨"order"⟩ u) ∧
    (∃ before, ((standard brokenChain id {}).report "a").2.calls = before ++ [⟨"c"⟩]) ∧
    ∃ u, "c" = brokenChain.aliasFor u ∧
      VisitsNext (standard brokenChain id { maxDepth := 1 }).targets
        ((standard brokenChain id { maxDepth := 1 }).report "a").2.calls u := by
  refine ⟨⟨_, rfl, rfl, ?_⟩, ?_, ?_⟩
  · exact ((report_calls (ofCatalog Catalog.sample defaultBase {}) "order").2.2 ⟨"order"⟩ rfl).2.1
      _ rfl
  · obtain ⟨-, before, hbefore, -⟩ :=
      ((report_calls (standard brokenChain id {}) "a").2.2 ⟨"a"⟩ rfl).2.2.1 ⟨"c"⟩
        "no definition" rfl
    exact ⟨before, hbefore⟩
  · obtain ⟨u, hu, hnext, -⟩ :=
      ((report_calls (standard brokenChain id { maxDepth := 1 }) "a").2.2 ⟨"a"⟩ rfl).2.2.2
        "c" 2 1 rfl
    exact ⟨u, hu, hnext⟩

end Compiler

end SchemaTree
