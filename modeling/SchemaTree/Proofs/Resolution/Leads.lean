import SchemaTree.Proofs.Resolution.Rewriting
import SchemaTree.Proofs.Walk.Completed

/-!
# Where deferred fields lead

The deferred fields of a flat schema stand for the references of its type.  In the tree of a report,
and in what resolving makes of it, they refer to types that the root leads to (`Compiler.Leads`).
These were all introspected, so **resolving the tree of a report never fails.**

* `exists_follows_of_mem_deferrals`, `mem_deferrals_of_follows`: deferred fields of flat schemas are
  references.
* `Completed.leads`, `Leads.replaceDeferred`: where the deferred fields of a tree lead, before and
  after resolving.
* `compile_of_report_ok`: what is compiled if there is a report.
-/

namespace SchemaTree

namespace Compiler

variable {c : Compiler} {aliasName : String} {root t : TypeId} {s : Schema}

/-- Deferred fields that refer to types to which a type leads. -/
def Leads (c : Compiler) (root : TypeId) (es : List Deferral) : Prop :=
  ∀ e ∈ es, ∃ t, e.1 = some t ∧ Reaches c.Follows root t

/-- **The deferred fields of a flat schema stand for the references of its type.** -/
theorem exists_follows_of_mem_deferrals {ds : List Descriptor} (hds : c.source.fields t = .ok ds)
    {depth : Nat} {e : Deferral} (he : e ∈ (c.flatSchema t ds).deferrals depth) :
    ∃ d u, e.1 = some u ∧ c.Follows ⟨t, d, u⟩ := by
  obtain ⟨f, hf, he⟩ := Field.mem_deferralsAll.mp he
  obtain ⟨d, hd, hfd⟩ := List.mem_filterMap.mp hf
  rcases link_of_flatField hfd with hnone | ⟨u, hu, hdef⟩
  · rcases Field.mem_deferrals.mp he with ⟨hdeferred, -⟩ | ⟨sub, hl, -⟩
    · obtain ⟨r, hr⟩ := Field.isDeferred_iff.mp hdeferred
      cases hnone.symm.trans hr
    · cases hnone.symm.trans hl
  · rcases Field.mem_deferrals.mp he with ⟨-, rfl⟩ | ⟨sub, hl, -⟩
    · refine ⟨d, u, ?_, ⟨ds, hds, hd⟩, hu⟩
      rw [(property_of_flatField hfd).1]
      exact object_of_target hu
    · cases hdef.symm.trans hl

/-- **All references of a type are deferred fields of its flat schema.** -/
theorem mem_deferrals_of_follows {ds : List Descriptor} (hds : c.source.fields t = .ok ds)
    {d : Descriptor} {u : TypeId} (h : c.Follows ⟨t, d, u⟩) (depth : Nat) :
    (some u, depth) ∈ (c.flatSchema t ds).deferrals depth := by
  obtain ⟨ds', hds', hd⟩ := h.declared
  cases hds.symm.trans hds'
  have hf := List.mem_filterMap.mpr ⟨d, hd, flatField_of_target h.target⟩
  refine Field.mem_deferralsAll.mpr ⟨_, hf, Field.mem_deferrals.mpr (Or.inl ⟨rfl, ?_⟩)⟩
  rw [Field.property_mk, object_of_target h.target]

theorem Completed.leads {r : Report} {z : Session} (h : c.Completed aliasName root r z) :
    c.Leads root (r.schema.deferrals 0) := by
  intro e he
  obtain ⟨o, ho, f, hf, hd, rfl⟩ := (Schema.mem_deferrals (some root)).mp he
  obtain ⟨u, -, hu, hreach⟩ := h.occurrence ho
  have hfill := h.sound.fills u o.schema hu
  obtain ⟨ref, hl⟩ := Field.isDeferred_iff.mp hd
  obtain ⟨t, ht, -⟩ := (hfill.linked f hf).of_deferred hl
  obtain ⟨d, hfollow, -⟩ := hfill.exists_follows hf ht
  exact ⟨t, object_of_target ht, hreach.step hfollow⟩

/-- **Resolving does not lead astray.** -/
theorem Leads.replaceDeferred (h : c.Leads root (s.deferrals 0)) (only : Option TypeId) :
    c.Leads root ((s.replaceDeferred (c.attach only)).deferrals 0) := by
  intro e he
  rw [Schema.deferrals_replaceDeferred become_remaining, List.mem_flatMap] at he
  obtain ⟨d, hd, he⟩ := he
  rw [remaining] at he
  split at he
  · obtain ⟨t, ht, hflat⟩ := Option.bind_eq_some_iff.mp ‹_›
    obtain ⟨ds, hds, rfl⟩ := flat?_eq_some_iff.mp hflat
    obtain ⟨t', ht', hreach⟩ := h d hd
    cases (Option.filter_eq_some_iff.mp ht).1.symm.trans ht'
    obtain ⟨d', u, hu, hfollow⟩ := exists_follows_of_mem_deferrals hds he
    exact ⟨u, hu, hreach.step hfollow⟩
  · rw [List.mem_singleton] at he
    rw [he]
    exact h d hd

/-- **Resolving succeeds where deferred fields lead to types that can be introspected.** -/
theorem Leads.resolved (h : c.Leads root (s.deferrals 0))
    (hknown : ∀ t, Reaches c.Follows root t → ∃ ds, c.source.fields t = .ok ds)
    (only : Option TypeId) (trace : Trace) :
    ((c.resolveSchema only s).outcome trace).1 = .ok (s.replaceDeferred (c.attach only)) := by
  refine (resolveSchema_ok_iff 0).mpr ⟨fun t ht => ?_, rfl⟩
  obtain ⟨e, he, hmeant⟩ := List.mem_filterMap.mp ht
  obtain ⟨u, hu, hreach⟩ := h e he
  cases (Option.filter_eq_some_iff.mp hmeant).1.symm.trans hu
  exact hknown t hreach

/-- **If a type can be reported it can be compiled**: its tree is what is reported, resolved if the
options ask for it. -/
theorem compile_of_report_ok {r : Report} (h : (c.report aliasName).1 = .ok r) :
    (c.compile aliasName).1 = .ok (match c.options.policy with
      | .reference => r.schema
      | .flatten => r.schema.replaceDeferred (c.attach none)) := by
  rcases c.compile_of_report aliasName with ⟨e, he, -⟩ | ⟨r', trace, hr, ⟨hp, hs⟩ | ⟨hp, hs⟩⟩
  · cases he.symm.trans h
  · cases hr.symm.trans h
    rw [hs, hp]
  · cases hr.symm.trans h
    obtain ⟨root, z, -, hz⟩ := report_completed h
    rw [hs, hp, hz.leads.resolved (fun _ => hz.fields_of_reaches)]

end Compiler

end SchemaTree
