import Mathlib.Tactic.TFAE
import SchemaTree.Proofs.Compiler.Legible

/-!
# Deferred fields and cycles

A field is deferred where the walk meets a type that is still being built.  In the tree of a
report this happens on cycles, and on every cycle that the root leads to.

* `Completed.onCycle`: **a deferred field stands for a reference that closes a cycle.**
* `Completed.exists_throughout`: **on every cycle that the root leads to, some reference is
  deferred, and in all schemas of its owner.**  If no reference of a cycle were, the
  schemas of the table would get lower and lower along it.
* `report_cycles`: for accepted catalogs, in terms of the references that types declare.
  Whether there is a cycle can be told from the pending types, from the tree, or from
  its document.
-/

namespace SchemaTree

/-- A field of a type that stands for a reference on a cycle. -/
def Compiler.OnCycle (c : Compiler) (E : Reference → Prop) (t : TypeId) (f : Field) : Prop :=
  ∃ d u rs, f.property = c.describe t d ∧ f.property.target? = some u ∧
    Cycle E t (⟨t, d, u⟩ :: rs)

/-- A reference that is deferred in all schemas of its owner; there is one. -/
structure Schema.DefersThroughout (s : Schema) (root : TypeId) (r : Reference) : Prop where
  occurs : ∃ o ∈ s.occurrences (some root) 0, o.label = some r.owner
  deferred : ∀ o ∈ s.occurrences (some root) 0, o.label = some r.owner →
    ∃ f, o.schema.field? r.field.name = some f ∧ f.isDeferred = true

namespace Compiler

variable {c : Compiler} {t : TypeId} {aliasName : String} {r : Report} {z : Session}

namespace Completed

/-- **A deferred field stands for a reference that closes a cycle.** -/
theorem onCycle (h : c.Completed aliasName t r z) {o : Occurrence}
    (ho : o ∈ r.schema.occurrences (some t) 0) {u : TypeId} (hu : o.label = some u) {f : Field}
    (hf : f ∈ o.schema.fields) (hd : f.isDeferred = true) : c.OnCycle c.Follows u f := by
  obtain ⟨u', hu', hz, -⟩ := h.occurrence ho
  rw [hu] at hu'
  cases hu'
  have hfill := h.sound.fills u o.schema hz
  obtain ⟨ref, hl⟩ := Field.isDeferred_iff.mp hd
  obtain ⟨v, hv, -, -, -, hback⟩ := (hfill.linked f hf).of_deferred hl
  obtain ⟨d, hfollow, hp⟩ := hfill.exists_follows hf hv
  obtain ⟨rs, hcycle⟩ := Cycle.of_reaches hfollow hback
  exact ⟨d, v, rs, hp, hv, hcycle⟩

/-- **On every cycle that the root leads to, some reference is deferred, in all schemas of its
owner.**  The number that cannot fall along the whole cycle is the height of the schema that the
table has for a type. -/
theorem exists_throughout (h : c.Completed aliasName t r z) (hc : c.KeepsNames)
    (hn : c.source.DistinctNames) {u : TypeId} (hu : Reaches c.Follows t u)
    {rs : List Reference} (hrs : Cycle c.Follows u rs) :
    ∃ e ∈ rs, r.schema.DefersThroughout t e := by
  obtain ⟨e, he, hnot⟩ :=
    hrs.exists_not_lt fun v => ((z.cached? v).map Schema.height).getD 0
  obtain ⟨howner, hfollow⟩ := hrs.2.reaches_owner he
  obtain ⟨o, ho, hlabel, hx⟩ := h.occurs_of_reaches (hu.trans howner)
  obtain ⟨f, hf, hp, y, hy, hl⟩ := h.exists_field hfollow hx
  -- A schema inside the field would be lower than the one around it.
  have hdef : f.isDeferred = true := by
    rcases hl with hl | hl
    · refine absurd ?_ hnot
      rw [hx, hy]
      exact Schema.height_lt hf hl
    · exact Field.isDeferred_iff.mpr ⟨_, hl⟩
  -- All schemas of the owner are the one of the table, so they have the same field.
  refine ⟨e, he, ⟨o, ho, hlabel⟩, fun o' ho' hlabel' => ?_⟩
  obtain ⟨v, hv, hx', -⟩ := h.occurrence ho'
  rw [hlabel'] at hv
  cases hv
  have hsame : o'.schema = o.schema := Option.some.inj (hx'.symm.trans hx)
  have hleg := (h.sound.fills e.owner _ hx).legible hc hn
  have hname : f.property.name = e.field.name := by rw [hp, hc]
  exact ⟨f, by rw [hsame, ← hname]; exact hleg.field?_eq hf, hdef⟩

theorem pending_ne_nil (h : c.Completed aliasName t r z) (hd : r.schema.hasDeferred = true) :
    r.pending ≠ [] := by
  obtain ⟨o, ho, f, hf, hd⟩ := (Schema.hasDeferred_iff (some t) 0).mp hd
  obtain ⟨u, -, hu, -⟩ := h.occurrence ho
  obtain ⟨ref, hl⟩ := Field.isDeferred_iff.mp hd
  obtain ⟨v, -, -, -, hv, -⟩ := ((h.sound.fills u o.schema hu).linked f hf).of_deferred hl
  rw [Session.pendingTypes, h.pending] at hv
  intro hnil
  rw [hnil] at hv
  exact absurd hv List.not_mem_nil

/-- **There is a deferred link if and only if the root leads to a cycle.** -/
theorem hasDeferred_iff (h : c.Completed aliasName t r z) (hc : c.KeepsNames)
    (hn : c.source.DistinctNames) :
    r.schema.hasDeferred = true ↔ ∃ u rs, Reaches c.Follows t u ∧ Cycle c.Follows u rs := by
  rw [Schema.hasDeferred_iff (some t) 0]
  constructor
  · rintro ⟨o, ho, f, hf, hd⟩
    obtain ⟨u, hlabel, -, hreach⟩ := h.occurrence ho
    obtain ⟨d, v, rs, -, -, hcycle⟩ := h.onCycle ho hlabel hf hd
    exact ⟨u, _, hreach, hcycle⟩
  · rintro ⟨u, rs, hreach, hcycle⟩
    obtain ⟨e, -, ⟨o, ho, hlabel⟩, hall⟩ := h.exists_throughout hc hn hreach hcycle
    obtain ⟨f, hf, hd⟩ := hall o ho hlabel
    exact ⟨o, ho, f, List.mem_of_find?_eq_some hf, hd⟩

end Completed

/-- **Cycles are detected exactly.**  For a report on an accepted catalog it is the same that nothing
is pending, that no link is deferred, that the document has no `$ref` in a schema position, and
that the type of the alias leads to no cycle of references.  Each deferred field is on a cycle, and
each cycle that the type of the alias leads to has a reference that is deferred throughout. -/
theorem report_cycles {catalog : Catalog} (hc : catalog.Accepted) (base : String)
    (options : CompilerOptions)
    (h : ((ofCatalog catalog base options).report aliasName).1 = .ok r) :
    ∃ root, catalog.source.resolve aliasName = some root ∧
      List.TFAE [r.pending = [],
        r.schema.hasDeferred = false,
        ¬ ∃ v, Json.Shows r.schema.toValue "$ref" v,
        ¬ ∃ t rs, Reaches catalog.source.Refers root t ∧ Cycle catalog.source.Refers t rs] ∧
      (∀ o ∈ r.schema.occurrences (some root) 0, ∀ t, o.label = some t →
        ∀ f ∈ o.schema.fields, f.isDeferred = true →
          (ofCatalog catalog base options).OnCycle catalog.source.Refers t f) ∧
      ∀ t rs, Reaches catalog.source.Refers root t → Cycle catalog.source.Refers t rs →
        ∃ e ∈ rs, r.schema.DefersThroughout root e := by
  obtain ⟨root, z, hroot, hz⟩ := report_completed h
  have hkeep : (ofCatalog catalog base options).KeepsNames := keepsNames_standard _ _ _
  have hnames : (ofCatalog catalog base options).source.DistinctNames := hc.distinctNames
  -- Standard handlers follow the declared references, and nothing else.
  have hfollows : (ofCatalog catalog base options).Follows = catalog.source.Refers :=
    follows_standard _ _ _
  have hcycle := hz.hasDeferred_iff hkeep hnames
  have hshows := Schema.shows_reference_iff (hz.legible hkeep hnames)
  rw [hfollows] at hcycle
  refine ⟨root, hroot, ?_, fun o ho t ht f hf hd => ?_, fun t rs ht hrs => ?_⟩
  · tfae_have 1 → 2 := by
      intro hp
      by_contra hd
      exact hz.pending_ne_nil (by simpa using hd) hp
    tfae_have 2 → 1 := hz.quiet
    tfae_have 2 ↔ 3 := by rw [hshows, Bool.not_eq_true]
    tfae_have 2 ↔ 4 := by rw [← hcycle, Bool.not_eq_true]
    tfae_finish
  · rw [← hfollows]
    exact hz.onCycle ho ht hf hd
  · rw [← hfollows] at ht hrs
    exact hz.exists_throughout hkeep hnames ht hrs

/-- A report that has a cycle behind it. -/
theorem report_cycles_sample :
    ∃ r, ((ofCatalog Catalog.sample defaultBase {}).report "order").1 = .ok r ∧
      r.pending = [(⟨"order"⟩, 1)] ∧
      ∃ root, Catalog.sample.source.resolve "order" = some root ∧
      List.TFAE [r.pending = [],
        r.schema.hasDeferred = false,
        ¬ ∃ v, Json.Shows r.schema.toValue "$ref" v,
        ¬ ∃ t rs, Reaches Catalog.sample.source.Refers root t ∧
          Cycle Catalog.sample.source.Refers t rs] ∧
      (∀ o ∈ r.schema.occurrences (some root) 0, ∀ t, o.label = some t →
        ∀ f ∈ o.schema.fields, f.isDeferred = true →
          (ofCatalog Catalog.sample defaultBase {}).OnCycle Catalog.sample.source.Refers t f) ∧
      ∀ t rs, Reaches Catalog.sample.source.Refers root t →
        Cycle Catalog.sample.source.Refers t rs →
        ∃ e ∈ rs, r.schema.DefersThroughout root e :=
  ⟨_, rfl, rfl, report_cycles Catalog.accepted_sample defaultBase {} rfl⟩

end Compiler

end SchemaTree
