import Mathlib.Data.List.Perm.Subperm
import SchemaTree.Proofs.Catalog.Closed
import SchemaTree.Proofs.Handlers.Standard
import SchemaTree.Proofs.Resolution.Leads
import SchemaTree.Proofs.Walk.Completed
import SchemaTree.Proofs.Walk.Stops

/-!
# When compiling fails

No type is built inside itself, so a walk that fails has come along references without meeting a
type twice (`Stops.trail`).  The resolution after a walk never fails: the types that were
deferred were being built, so their fields are known (`compile_ok_iff`).

* `report_withPolicy`: what is done about deferred references does not change a report.
* `compile_fails_only_deep`: **compiling an accepted catalog fails only where a path of references
  without repeated types is longer than the limit**, whatever is done about deferred references.
-/

namespace SchemaTree

/-- An error about the depth, with a path of references behind it that is one longer than the limit,
repeats no type and ends in the type of the alias that the error names. -/
def Catalog.TooDeep (catalog : Catalog) (root : TypeId) (limit : Nat) (e : CompileError) : Prop :=
  ∃ a rs u, e = .depthExceeded a (limit + 1) limit ∧ rs.length = limit + 1 ∧
    Trail catalog.source.Refers root rs u ∧ (root :: rs.map (·.target)).Nodup ∧
    catalog.source.aliasOf u = some a

namespace Compiler

variable {c : Compiler} {t u : TypeId} {depth : Nat} {s s' s₁ : Session} {e : CompileError}
  {aliasName : String}

/-! ## The way to where a walk fails -/

theorem ComesTo.path_eq {before after : List Descriptor} {d : Descriptor}
    (h : c.ComesTo t depth s before d after u s₁) : s₁.path = t :: s.path := by
  obtain ⟨fs, hb⟩ := h.builds
  exact hb.path_eq

theorem ComesTo.follows {before after : List Descriptor} {d : Descriptor}
    (h : c.ComesTo t depth s before d after u s₁) : c.Follows ⟨t, d, u⟩ :=
  ⟨⟨_, h.fields, List.mem_append_right _ List.mem_cons_self⟩, h.target⟩

/-- The type in which a walk fails, at a depth: it cannot be introspected or is too deep. -/
def FailsAt (c : Compiler) (u : TypeId) (depth : Nat) (e : CompileError) : Prop :=
  (∃ reason, c.source.fields u = .error reason ∧ e = .introspection u reason) ∨
  (depth = c.options.maxDepth + 1 ∧
    e = .depthExceeded (c.source.aliasFor u) depth c.options.maxDepth)

/-- **A walk that fails has come along references without meeting a type twice**, and no type that
was being built when it started. -/
theorem Stops.trail (h : c.Stops t depth s e s') (ht : t ∉ s.path) :
    ∃ rs u, Trail c.Follows t rs u ∧ (t :: rs.map (·.target)).Nodup ∧
      (∀ v ∈ t :: rs.map (·.target), v ∉ s.path) ∧ c.FailsAt u (depth + rs.length) e := by
  induction h with
  | @unreadable t depth s reason hfields =>
    refine ⟨[], t, rfl, List.nodup_singleton t, ?_, Or.inl ⟨reason, hfields, rfl⟩⟩
    exact List.forall_mem_singleton.mpr ht
  | @tooDeep t depth s s₁ before after d u hcomes hdepth =>
    have hnew := hcomes.new
    rw [hcomes.path_eq, List.mem_cons, not_or] at hnew
    refine ⟨[⟨t, d, u⟩], u, ⟨rfl, hcomes.follows, rfl⟩, ?_, ?_, Or.inr ⟨?_, rfl⟩⟩
    · exact List.nodup_cons.mpr ⟨by simpa using Ne.symm hnew.1, List.nodup_singleton u⟩
    · exact List.forall_mem_cons.mpr ⟨ht, List.forall_mem_singleton.mpr hnew.2⟩
    · rw [List.length_singleton, hdepth]
  | @inside t depth s s₁ s₂ before after d u e hcomes _ ih =>
    -- The rest of the way avoids the path, on which t has been put.
    obtain ⟨rs, v, htrail, hnodup, hnew, hfails⟩ := ih hcomes.new
    have hout : ∀ w ∈ u :: rs.map (·.target), w ≠ t ∧ w ∉ s.path := by
      intro w hw
      have hpath := hnew w hw
      rw [path_described, hcomes.path_eq, List.mem_cons, not_or] at hpath
      exact hpath
    refine ⟨⟨t, d, u⟩ :: rs, v, ⟨rfl, hcomes.follows, htrail⟩, ?_, ?_, ?_⟩
    · exact List.nodup_cons.mpr ⟨fun hmem => (hout t hmem).1 rfl, hnodup⟩
    · exact List.forall_mem_cons.mpr ⟨ht, fun w hw => (hout w hw).2⟩
    · rw [List.length_cons, ← Nat.add_assoc, Nat.add_right_comm]
      exact hfails

/-- **Behind a report that fails there is a path of references without repeated types**, to a type
that cannot be introspected or is too deep. -/
theorem report_error (ht : c.source.resolve aliasName = some t)
    (h : (c.report aliasName).1 = .error e) :
    ∃ rs u, Trail c.Follows t rs u ∧ (t :: rs.map (·.target)).Nodup ∧
      c.FailsAt u rs.length e := by
  rcases report_of_walk ht with ⟨x, s', -, hr⟩ | ⟨e', s', hw, hr⟩
  · rw [hr] at h
    cases h
  · rw [hr] at h
    cases h
    obtain ⟨rs, u, htrail, hnodup, -, hfails⟩ := (walkFrom_stops hw).trail List.not_mem_nil
    exact ⟨rs, u, htrail, hnodup, by rwa [Nat.zero_add] at hfails⟩

/-! ## Resolving the tree of a report -/

theorem report_of_compile_error (h : (c.compile aliasName).1 = .error e) :
    (c.report aliasName).1 = .error e := by
  rcases c.compile_of_report aliasName with ⟨e', hr, he⟩ | ⟨r, -, hr, -⟩
  · cases he.symm.trans h
    exact hr
  · cases (compile_of_report_ok hr).symm.trans h

/-- **A type can be compiled if and only if it can be reported**, whatever the options ask for. -/
theorem compile_ok_iff :
    (∃ x, (c.compile aliasName).1 = .ok x) ↔ ∃ r, (c.report aliasName).1 = .ok r := by
  constructor
  · rintro ⟨x, hx⟩
    obtain ⟨r, hr, -⟩ := compile_ok hx
    exact ⟨r, hr⟩
  · rintro ⟨r, hr⟩
    exact ⟨_, compile_of_report_ok hr⟩

/-! ## Policies -/

/-- The same compiler with another policy. -/
def withPolicy (c : Compiler) (policy : CyclePolicy) : Compiler :=
  { c with options := { c.options with policy } }

theorem buildFields_withPolicy (policy : CyclePolicy) (expand : Expansion) (owner : TypeId)
    (depth : Nat) (ds : List Descriptor) :
    (c.withPolicy policy).buildFields expand owner depth ds =
      c.buildFields expand owner depth ds := by
  induction ds with
  | nil => rfl
  | cons d ds ih =>
    rw [buildFields, buildFields, ih]
    rfl

theorem compileType_withPolicy (policy : CyclePolicy) (room : Nat) :
    (c.withPolicy policy).compileType room = c.compileType room := by
  induction room with
  | zero => rfl
  | succ room ih =>
    funext aliasName t depth
    rw [compileType, compileType, ih, buildSchema, buildSchema]
    simp only [buildFields_withPolicy]
    rfl

/-- **What is done about deferred references does not change a report.** -/
theorem report_withPolicy (policy : CyclePolicy) (aliasName : String) :
    (c.withPolicy policy).report aliasName = c.report aliasName := by
  have hwalk : (c.withPolicy policy).walkFrom aliasName = c.walkFrom aliasName := by
    funext t
    rw [walkFrom, walkFrom, compileType_withPolicy]
    rfl
  rw [report, report, hwalk]
  rfl

/-! ## Accepted catalogs -/

variable {catalog : Catalog} {root : TypeId}

/-- **A report on an accepted catalog fails only for the depth.** -/
theorem tooDeep_of_report_error (hc : catalog.Accepted) (identifier : String → String)
    (options : CompilerOptions) (hroot : catalog.source.resolve aliasName = some root)
    (h : ((standard catalog.source identifier options).report aliasName).1 = .error e) :
    catalog.TooDeep root options.maxDepth e := by
  obtain ⟨rs, u, htrail, hnodup, hfails⟩ := report_error hroot h
  rw [follows_standard] at htrail
  have hu : catalog.Has u := hc.has_of_reaches (Catalog.has_of_resolve hroot) ⟨rs, htrail⟩
  rcases hfails with ⟨reason, hreason, -⟩ | ⟨hlength, he⟩
  · obtain ⟨ds, hds⟩ := hu.fields
    cases hds.symm.trans hreason
  · rw [hlength] at he
    exact ⟨_, rs, u, he, hlength, htrail, hnodup, hu.aliasOf⟩

/-- **A path without repeated types is no longer than there are types.** -/
theorem length_lt_of_trail (hc : catalog.Accepted) (hroot : catalog.Has root)
    {rs : List Reference} (h : Trail catalog.source.Refers root rs u)
    (hnodup : (root :: rs.map (·.target)).Nodup) : rs.length < catalog.types.length := by
  have hsub : root :: rs.map (·.target) ⊆ catalog.types.map (·.identity) := by
    refine List.cons_subset.mpr ⟨hroot, fun v hv => ?_⟩
    obtain ⟨r, hr, rfl⟩ := List.mem_map.mp hv
    exact hc.has_target (h.reaches_owner hr).2
  have hle := (hnodup.subperm hsub).length_le
  rw [List.length_cons, List.length_map, List.length_map] at hle
  exact hle

/-- **Compiling an accepted catalog fails only for real depth.**  For each of its aliases the result
is a schema or an error about the depth, and behind the error there is a path of references without
repeated types that is one longer than the limit.  The policy does not matter, and a catalog of at
most as many types as fit within the limit compiles. -/
theorem compile_fails_only_deep (hc : catalog.Accepted) (identifier : String → String)
    (options : CompilerOptions) (ha : aliasName ∈ catalog.aliases) :
    ∃ root, catalog.source.resolve aliasName = some root ∧
      ((∃ x, ((standard catalog.source identifier options).compile aliasName).1 = .ok x) ∨
        ∃ e, ((standard catalog.source identifier options).compile aliasName).1 = .error e ∧
          catalog.TooDeep root options.maxDepth e) ∧
      ((∃ x, ((standard catalog.source identifier
          { options with policy := .flatten }).compile aliasName).1 = .ok x) ↔
        ∃ x, ((standard catalog.source identifier
          { options with policy := .reference }).compile aliasName).1 = .ok x) ∧
      (catalog.types.length ≤ options.maxDepth + 1 →
        ∃ x, ((standard catalog.source identifier options).compile aliasName).1 = .ok x) := by
  obtain ⟨root, hroot⟩ := Catalog.resolve_of_mem ha
  have hdeep : ∀ e, ((standard catalog.source identifier options).compile aliasName).1 = .error e →
      catalog.TooDeep root options.maxDepth e := fun e he =>
    tooDeep_of_report_error hc identifier options hroot (report_of_compile_error he)
  refine ⟨root, hroot, ?_, ?_, fun hlength => ?_⟩
  · cases hx : ((standard catalog.source identifier options).compile aliasName).1 with
    | ok x => exact Or.inl ⟨x, rfl⟩
    | error e => exact Or.inr ⟨e, rfl, hdeep e hx⟩
  · rw [compile_ok_iff, compile_ok_iff]
    exact Eq.to_iff (congrArg (fun o => ∃ r, o.1 = .ok r)
      (report_withPolicy (c := standard catalog.source identifier
        { options with policy := .reference }) .flatten aliasName))
  · cases hx : ((standard catalog.source identifier options).compile aliasName).1 with
    | ok x => exact ⟨x, rfl⟩
    | error e =>
      -- On a trail that is longer than the limit there would be more types than there are.
      obtain ⟨a, rs, u, -, hrs, htrail, hnodup, -⟩ := hdeep e hx
      have hlt := length_lt_of_trail hc (Catalog.has_of_resolve hroot) htrail hnodup
      omega

/-- As many types as fit within the limit; and a limit that an order exceeds with its customer. -/
theorem compile_fails_only_deep_sample :
    (∃ x, ((ofCatalog Catalog.sample defaultBase { maxDepth := 2 }).compile "order").1 = .ok x) ∧
    ((ofCatalog Catalog.sample defaultBase { maxDepth := 0 }).compile "order").1 =
      .error (.depthExceeded "customer" 1 0) ∧
    Catalog.sample.TooDeep ⟨"order"⟩ 0 (.depthExceeded "customer" 1 0) := by
  have halias : "order" ∈ Catalog.sample.aliases := List.mem_cons_self
  have herror : ((ofCatalog Catalog.sample defaultBase { maxDepth := 0 }).compile "order").1 =
      .error (.depthExceeded "customer" 1 0) := rfl
  refine ⟨?_, herror, ?_⟩
  · obtain ⟨-, -, -, -, hfits⟩ := compile_fails_only_deep Catalog.accepted_sample
      (urlFor defaultBase) { maxDepth := 2 } halias
    exact hfits (Nat.le_refl 3)
  · obtain ⟨root, hroot, ⟨x, hx⟩ | ⟨e, he, hdeep⟩, -⟩ := compile_fails_only_deep
      Catalog.accepted_sample (urlFor defaultBase) { maxDepth := 0 } halias
    · cases herror.symm.trans hx
    · cases hroot
      cases herror.symm.trans he
      exact hdeep

end Compiler

end SchemaTree
