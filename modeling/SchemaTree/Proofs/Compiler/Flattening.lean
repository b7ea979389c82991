import SchemaTree.Proofs.Compiler.Cycles
import SchemaTree.Proofs.Compiler.Failure
import SchemaTree.Proofs.Compiler.Resolution

/-!
# Flattening keeps cycles

Resolving can be repeated, pass after pass.  Each pass replaces all deferred fields by flat schemas,
which may have deferred fields of their own or none.  A tree without deferred links stays as it is.
In any other tree of a report some deferred field refers to a type on a cycle
(`Compiler.Endless`), and the flat schema of that type has a deferred field that goes on along the
cycle, so **no number of passes gets rid of all references.**

* `Endless.resolved`: one pass goes on along a cycle.
* `Unfinished.pass`: one pass succeeds and keeps whether there are deferred links.
* `flattening_keeps_cycles`: any number of passes, and what compiling makes of it.
-/

namespace SchemaTree

namespace Compiler

/-- Resolves all deferred links of a schema, and does so again with the result, a number of times. -/
def resolveTimes (c : Compiler) : Nat → Schema → Except CompileError Schema
  | 0, s => .ok s
  | k + 1, s =>
    match (c.resolve none s).1 with
    | .ok x => c.resolveTimes k x
    | .error e => .error e

/-- A tree with a deferred field that refers to a type on a cycle. -/
def Endless (c : Compiler) (s : Schema) : Prop :=
  ∃ e ∈ s.deferrals 0, ∃ t rs, e.1 = some t ∧ Cycle c.Follows t rs

variable {c : Compiler} {aliasName : String} {root t : TypeId} {s : Schema}

theorem Endless.hasDeferred (h : c.Endless s) : s.hasDeferred = true := by
  obtain ⟨e, he, -⟩ := h
  exact (Schema.hasDeferred_iff_exists_deferral 0).mpr ⟨e, he⟩

/-- **The tree of a report with a deferred link has one to a type on a cycle.** -/
theorem Completed.endless {r : Report} {z : Session} (h : c.Completed aliasName root r z)
    (hd : r.schema.hasDeferred = true) : c.Endless r.schema := by
  obtain ⟨o, ho, f, hf, hf'⟩ := (Schema.hasDeferred_iff (some root) 0).mp hd
  obtain ⟨t, ht, -⟩ := h.occurrence ho
  obtain ⟨d, u, rs, -, hu, hcycle⟩ := h.onCycle ho ht hf hf'
  exact ⟨_, (Schema.mem_deferrals (some root)).mpr ⟨o, ho, f, hf, hf', rfl⟩, u, _,
    object_of_target hu, hcycle.rotate⟩

/-- **The flat schema of a type on a cycle has a deferred field that goes on along the cycle.** -/
theorem exists_deferral_of_cycle {rs : List Reference} (h : Cycle c.Follows t rs) (depth : Nat) :
    ∃ x, c.flat? t = some x ∧ ∃ e ∈ x.deferrals depth, ∃ u rs', e.1 = some u ∧
      Cycle c.Follows u rs' := by
  cases rs with
  | nil => exact absurd rfl h.1
  | cons r rs =>
    obtain ⟨hne, rfl, hr, hrs⟩ := h
    obtain ⟨ds, hds, -⟩ := hr.declared
    exact ⟨_, flat?_eq_some_iff.mpr ⟨ds, hds, rfl⟩, _, mem_deferrals_of_follows hds hr depth,
      r.target, _, rfl, Cycle.rotate ⟨hne, rfl, hr, hrs⟩⟩

/-- **Resolving goes on along a cycle.** -/
theorem Endless.resolved (h : c.Endless s) : c.Endless (s.replaceDeferred (c.attach none)) := by
  obtain ⟨d, hd, t, rs, ht, hcycle⟩ := h
  obtain ⟨x, hx, e, he, hnext⟩ := exists_deferral_of_cycle hcycle (d.2 + 1)
  refine ⟨e, ?_, hnext⟩
  rw [Schema.deferrals_replaceDeferred become_remaining, List.mem_flatMap]
  refine ⟨d, hd, ?_⟩
  rw [remaining, ht, Option.filter_some_pos rfl, Option.bind_some, hx]
  exact he

/-- What every pass starts from: the deferred fields refer to types that a root leads to, and if
there are any, one of them refers to a type on a cycle. -/
structure Unfinished (c : Compiler) (root : TypeId) (s : Schema) : Prop where
  leads : c.Leads root (s.deferrals 0)
  endless : s.hasDeferred = true → c.Endless s

/-- **One pass succeeds and keeps whether there are deferred links**, if all types that the root
leads to can be introspected. -/
theorem Unfinished.pass (h : c.Unfinished root s)
    (hknown : ∀ t, Reaches c.Follows root t → ∃ ds, c.source.fields t = .ok ds) :
    (c.resolve none s).1 = .ok (s.replaceDeferred (c.attach none)) ∧
      c.Unfinished root (s.replaceDeferred (c.attach none)) ∧
      (s.replaceDeferred (c.attach none)).hasDeferred = s.hasDeferred := by
  refine ⟨h.leads.resolved hknown none {}, ?_⟩
  cases hd : s.hasDeferred with
  | true =>
    have hendless := (h.endless hd).resolved
    exact ⟨⟨h.leads.replaceDeferred none, fun _ => hendless⟩, hendless.hasDeferred⟩
  | false =>
    rw [Schema.replaceDeferred_of_not_hasDeferred hd]
    exact ⟨h, hd⟩

/-- **Any number of passes succeeds and keeps whether there are deferred links.** -/
theorem Unfinished.resolveTimes (h : c.Unfinished root s)
    (hknown : ∀ t, Reaches c.Follows root t → ∃ ds, c.source.fields t = .ok ds) (k : Nat) :
    ∃ x, c.resolveTimes k s = .ok x ∧ x.hasDeferred = s.hasDeferred := by
  induction k generalizing s with
  | zero => exact ⟨s, rfl, rfl⟩
  | succ k ih =>
    obtain ⟨hpass, hunfinished, hkeep⟩ := h.pass hknown
    obtain ⟨x, hx, hkeep'⟩ := ih hunfinished
    refine ⟨x, ?_, hkeep'.trans hkeep⟩
    rw [Compiler.resolveTimes, hpass]
    exact hx

theorem Completed.unfinished {r : Report} {z : Session} (h : c.Completed aliasName root r z) :
    c.Unfinished root r.schema :=
  ⟨h.leads, h.endless⟩

/-- **What is compiled has a deferred link if what is reported has one**, under either policy. -/
theorem compile_keeps_hasDeferred {r : Report} (h : (c.report aliasName).1 = .ok r) :
    ∃ x, (c.compile aliasName).1 = .ok x ∧ x.hasDeferred = r.schema.hasDeferred := by
  refine ⟨_, compile_of_report_ok h, ?_⟩
  cases c.options.policy with
  | reference => rfl
  | flatten =>
    obtain ⟨root, z, -, hz⟩ := report_completed h
    exact (hz.unfinished.pass fun _ => hz.fields_of_reaches).2.2

/-! ## Accepted catalogs -/

section

variable {catalog : Catalog} {r : Report}

theorem Emits.shows_reference_iff (hc : catalog.Accepted) {base : String}
    {options : CompilerOptions} (h : (ofCatalog catalog base options).Emits aliasName s) :
    (∃ v, Json.Shows s.toValue "$ref" v) ↔ s.hasDeferred = true := by
  obtain ⟨root, hclosed⟩ := h.closed (keepsNames_standard _ _ _) hc.distinctNames
    fun t ht => hc.aliasFor_resolve ht
  exact Schema.shows_reference_iff fun o ho => (hclosed.tidy o ho).legible

/-- **Flattening never makes a cyclic document free of references, nor an acyclic one cyclic.**  For a
report on an accepted catalog any number of passes succeeds and keeps whether there are deferred
links, and what is compiled under the policy that flattens leaves a `$ref` in the document if and
only if what is compiled under the other one does. -/
theorem flattening_keeps_cycles (hc : catalog.Accepted) (base : String) (options : CompilerOptions)
    (h : ((ofCatalog catalog base options).report aliasName).1 = .ok r) :
    (∀ k, ∃ x, (ofCatalog catalog base options).resolveTimes k r.schema = .ok x ∧
      x.hasDeferred = r.schema.hasDeferred) ∧
    ∃ x s, ((ofCatalog catalog base
        { options with policy := .flatten }).compile aliasName).1 = .ok x ∧
      ((ofCatalog catalog base
        { options with policy := .reference }).compile aliasName).1 = .ok s ∧
      ((∃ v, Json.Shows x.toValue "$ref" v) ↔ ∃ v, Json.Shows s.toValue "$ref" v) := by
  have hpolicy : ∀ policy, ((ofCatalog catalog base
      { options with policy := policy }).report aliasName).1 = .ok r := by
    intro policy
    have heq := report_withPolicy (c := ofCatalog catalog base options) policy aliasName
    exact (congrArg Prod.fst heq).trans h
  constructor
  · obtain ⟨root, z, -, hz⟩ := report_completed h
    exact hz.unfinished.resolveTimes fun _ => hz.fields_of_reaches
  · obtain ⟨x, hx, hxd⟩ := compile_keeps_hasDeferred (hpolicy .flatten)
    obtain ⟨s, hs, hsd⟩ := compile_keeps_hasDeferred (hpolicy .reference)
    refine ⟨x, s, hx, hs, ?_⟩
    rw [(Emits.compiled hx).shows_reference_iff hc, (Emits.compiled hs).shows_reference_iff hc,
      hxd, hsd]

/-- Three passes over a document with a cycle. -/
theorem flattening_keeps_cycles_sample :
    ∃ r, ((ofCatalog Catalog.sample defaultBase {}).report "order").1 = .ok r ∧
      ∃ x, (ofCatalog Catalog.sample defaultBase {}).resolveTimes 3 r.schema = .ok x ∧
        x.hasDeferred = true := by
  obtain ⟨r, hr, hd⟩ : ∃ r, ((ofCatalog Catalog.sample defaultBase {}).report "order").1 = .ok r ∧
      r.schema.hasDeferred = true := ⟨_, rfl, rfl⟩
  obtain ⟨x, hx, hkeep⟩ :=
    (flattening_keeps_cycles Catalog.accepted_sample defaultBase {} hr).1 3
  exact ⟨r, hr, x, hx, hkeep.trans hd⟩

end

end Compiler

end SchemaTree
