import SchemaTree.Proofs.Compiler.Introspection
import SchemaTree.Proofs.Walk.Completed
import SchemaTree.Proofs.Walk.Ended

/-!
# Sessions of a compilation

The session of a compilation is well formed at all times when a task is begun, for all sources of
types and all handlers, and also where the compilation fails in the end
(`session_wellFormed`):

* **the path is the chain of types from the root to the one that is being built**;
* no type is on the path and in the cache at once, and all types that were deferred are known;
* when the task has ended, however it did, **the path is what it was**;
* the cache and the pending types only grow, up to each task that is started and from there on.

What is pending in the end is not lost with the session: the pending types of a report and their
depths can be read off its tree (`report_pending`).  The order is that of the tree, and the depth is
where a type is deferred first, though the walk may have come across the same deferred field again in
a schema that was attached elsewhere.
-/

namespace SchemaTree

namespace Compiler

/-! ## While tasks are done -/

/-- **The session of a compilation is well formed whenever a task is begun, and it is given back
when the task has ended.**  Whatever is introspected, is introspected for such a task. -/
theorem session_wellFormed (c : Compiler) (aliasName : String) :
    (∀ task s, c.Begun aliasName task s →
      (∃ root, c.source.resolve aliasName = some root ∧ c.MayBegin root task s) ∧
      s.Apart ∧ s.Accounted ∧ s.Restored (c.after task s) ∧
      ∀ task' s', c.Starts task s task' s' →
        s.Extends s' ∧ (c.after task' s').Extends (c.after task s)) ∧
    ∀ t ∈ (c.report aliasName).2.calls, ∃ a depth s,
      c.Begun aliasName (.buildSchema a t depth) s := by
  refine ⟨fun task s h => ?_, fun t ht => exists_begun_of_mem_calls ht⟩
  obtain ⟨root, hroot, hi⟩ := h.invariant
  have hs := hi.sound.apart
  refine ⟨⟨root, hroot, hi.begins⟩, hs, hi.sound.accounted hi.tracked, hi.restored, ?_⟩
  exact fun task' s' hstarts => hstarts.extends hs

theorem begun_sample : ∃ s,
    (ofCatalog Catalog.sample defaultBase {}).Begun "order" (.buildSchema "item" ⟨"Item"⟩ 1) s ∧
    s.path = [⟨"Item"⟩, ⟨"order"⟩] ∧ s.pending = [(⟨"order"⟩, 1)] ∧
    ∃ x, s.cached? ⟨"customer"⟩ = some x ∧ x.deferrals 0 = [(some ⟨"order"⟩, 0)] := by
  have hroot : (ofCatalog Catalog.sample defaultBase {}).Begun "order" _ _ := Begun.root rfl
  have hfields := (hroot.started (.build (by decide))).started (.fields rfl)
  have hitems := hfields.started (.next rfl)
  have hitem := (hitems.started (.link rfl)).started (.expand rfl (by decide))
  exact ⟨_, hitem.started (.build (by decide)), rfl, rfl, _, rfl, rfl⟩

theorem begun_brokenChain : ∃ s,
    (standard brokenChain id {}).Begun "a" (.compileType "b" ⟨"b"⟩ 1) s ∧ s.path = [⟨"a"⟩] ∧
    (((standard brokenChain id {}).below 0 "b" ⟨"b"⟩ 1).run s).1 =
      .error (.introspection ⟨"c"⟩ "no definition") := by
  have hroot : (standard brokenChain id {}).Begun "a" _ _ := Begun.root rfl
  have hfields := (hroot.started (.build (by decide))).started (.fields rfl)
  have hb := (hfields.started (.link rfl)).started (.expand rfl (by decide))
  exact ⟨_, hb, rfl, rfl⟩

/-- The session of the sample when the task is begun, and that of the broken chain when the task has
failed. -/
theorem session_wellFormed_sample :
    (∃ s, (ofCatalog Catalog.sample defaultBase {}).Begun "order"
        (.buildSchema "item" ⟨"Item"⟩ 1) s ∧
      s.path = [⟨"Item"⟩, ⟨"order"⟩] ∧ s.pending = [(⟨"order"⟩, 1)] ∧ s.Apart ∧ s.Accounted) ∧
    (∃ s, (standard brokenChain id {}).Begun "a" (.compileType "b" ⟨"b"⟩ 1) s ∧
      (((standard brokenChain id {}).below 0 "b" ⟨"b"⟩ 1).run s).1 =
        .error (.introspection ⟨"c"⟩ "no definition") ∧
      ((standard brokenChain id {}).after (.compileType "b" ⟨"b"⟩ 1) s).path = [⟨"a"⟩]) ∧
    ∃ a depth s, (standard brokenChain id {}).Begun "a" (.buildSchema a ⟨"c"⟩ depth) s := by
  refine ⟨?_, ?_, (session_wellFormed (standard brokenChain id {}) "a").2 ⟨"c"⟩ (by decide)⟩
  · obtain ⟨s, hbegun, hpath, hpending, -⟩ := begun_sample
    obtain ⟨-, hapart, haccounted, -⟩ :=
      (session_wellFormed (ofCatalog Catalog.sample defaultBase {}) "order").1 _ s hbegun
    exact ⟨s, hbegun, hpath, hpending, hapart, haccounted⟩
  · obtain ⟨s, hbegun, hpath, herror⟩ := begun_brokenChain
    obtain ⟨-, -, -, hrestored, -⟩ :=
      (session_wellFormed (standard brokenChain id {}) "a").1 _ s hbegun
    exact ⟨s, hbegun, herror, hrestored.path.trans hpath⟩

/-! ## What is pending in the end -/

/-- **The pending types of a report can be read off its tree**: they are the first deferred field
for each type, in the order of the tree, with the depth of the schema that has it. -/
theorem report_pending (c : Compiler) (aliasName : String) {r : Report}
    (h : (c.report aliasName).1 = .ok r) :
    r.pending.map Deferral.ofPending = Deferral.firsts (r.schema.deferrals 0) := by
  obtain ⟨t, inner, fs, s₀, s₁, -, hw⟩ := report_walked h
  have hfold := hw.builds.pending_eq_foldl hw.ready
  rw [hw.pending₀, Deferral.foldl_add] at hfold
  rw [hw.pending, hfold, hw.schema, Schema.deferrals]
  simp

/-- A type that is deferred twice: in a schema, and where that schema is attached again. -/
theorem report_pending_sample :
    ∃ r, ((ofCatalog Catalog.sample defaultBase {}).report "order").1 = .ok r ∧
      r.schema.deferrals 0 = [(some ⟨"order"⟩, 1), (some ⟨"order"⟩, 2)] ∧
      r.pending.map Deferral.ofPending = Deferral.firsts (r.schema.deferrals 0) :=
  ⟨_, rfl, rfl, report_pending (ofCatalog Catalog.sample defaultBase {}) "order" rfl⟩

end Compiler

end SchemaTree
