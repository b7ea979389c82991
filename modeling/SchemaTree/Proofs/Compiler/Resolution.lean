import SchemaTree.Proofs.Compiler.References
import SchemaTree.Proofs.Resolution.Leads

/-!
# What resolving rewrites

Resolving replaces the deferred fields that are meant by the flat schemas of their types, and does
nothing else.

* `Emits.leads`: every deferred field of an emitted tree refers to a type that the root leads to, so
  that **all of them are replaced if all are meant**.
* `resolve_rewrites`: the result of a resolution, how it fails, and which deferred fields are left.
-/

namespace SchemaTree

namespace Compiler

variable {c : Compiler} {aliasName : String} {s : Schema}

/-- **Every deferred field of an emitted tree refers to a type that the type of the alias leads
to.** -/
theorem Emits.leads (h : c.Emits aliasName s) :
    ∃ root, c.source.resolve aliasName = some root ∧ c.Leads root (s.deferrals 0) := by
  refine h.induction (P := fun s => ∃ root, c.source.resolve aliasName = some root ∧
    c.Leads root (s.deferrals 0)) ?_ ?_
  · intro r hr
    obtain ⟨root, z, hroot, hz⟩ := report_completed hr
    exact ⟨root, hroot, hz.leads⟩
  · rintro y x only _ _ ⟨root, hroot, hleads⟩ hx
    obtain ⟨-, rfl⟩ := (resolveSchema_ok_iff 0).mp (congrArg Prod.fst hx)
    exact ⟨root, hroot, hleads.replaceDeferred only⟩

/-- **Resolving rewrites exactly the deferred fields that are meant.**  It succeeds if the types of
all of them can be introspected, and puts the flat schemas of these types in their places; all else
is as it was, at every depth.  It fails at the first one, in the order of the tree, whose type cannot
be introspected.  Afterwards those fields are deferred that are so in the flat schemas, and those
that were not meant.  That schemas without deferred links are passed over makes no difference, and a
tree in which none is meant is left alone without introspecting anything.  In an emitted tree every
deferred field refers to a type. -/
theorem resolve_rewrites (c : Compiler) (only : Option TypeId) (s : Schema) :
    (∀ x, (c.resolve only s).1 = .ok x ↔
      (∀ t ∈ meantAmong only (s.deferrals 0), ∃ ds, c.source.fields t = .ok ds) ∧
        x = s.replaceDeferred (c.attach only)) ∧
    (∀ e, (c.resolve only s).1 = .error e ↔
      ∃ before t after reason, meantAmong only (s.deferrals 0) = before ++ t :: after ∧
        (∀ u ∈ before, ∃ ds, c.source.fields u = .ok ds) ∧
        c.source.fields t = .error reason ∧ e = .introspection t reason) ∧
    (∀ depth, (s.replaceDeferred (c.attach only)).deferrals depth =
      (s.deferrals depth).flatMap (c.remaining only)) ∧
    c.resolve only s = (c.rewriteSchema only s).outcome {} ∧
    (meantAmong only (s.deferrals 0) = [] → c.resolve only s = (.ok s, {})) ∧
    ∀ aliasName, c.Emits aliasName s → ∀ e ∈ s.deferrals 0, ∃ t, e.1 = some t := by
  refine ⟨fun x => resolveSchema_ok_iff 0, fun e => resolveSchema_error_iff 0,
    Schema.deferrals_replaceDeferred become_remaining s, ?_, resolve_of_none_meant, ?_⟩
  · rw [resolve, resolveSchema_eq_rewriteSchema]
  · intro aliasName h e he
    obtain ⟨root, -, hleads⟩ := h.leads
    obtain ⟨t, ht, -⟩ := hleads e he
    exact ⟨t, ht⟩

/-- All references of a report go to one type: they are resolved for this type, and left alone for
another one. -/
theorem resolve_rewrites_sample :
    ∃ r, ((ofCatalog Catalog.sample defaultBase {}).report "order").1 = .ok r ∧
      (∀ e ∈ r.schema.deferrals 0, ∃ t, e.1 = some t) ∧
      ((ofCatalog Catalog.sample defaultBase {}).resolve (some ⟨"order"⟩) r.schema).1 = .ok
        (r.schema.replaceDeferred ((ofCatalog Catalog.sample defaultBase {}).attach
          (some ⟨"order"⟩))) ∧
      (ofCatalog Catalog.sample defaultBase {}).resolve (some ⟨"customer"⟩) r.schema =
        (.ok r.schema, {}) := by
  refine ⟨_, rfl, ?_, ?_, ?_⟩
  · exact (resolve_rewrites (ofCatalog Catalog.sample defaultBase {}) none _).2.2.2.2.2 "order"
      (Emits.reported rfl)
  · refine ((resolve_rewrites _ (some ⟨"order"⟩) _).1 _).mpr ⟨fun t ht => ?_, rfl⟩
    have hmem : t ∈ [(⟨"order"⟩ : TypeId), ⟨"order"⟩] := ht
    obtain rfl : t = ⟨"order"⟩ := by simpa using hmem
    exact ⟨_, rfl⟩
  · exact (resolve_rewrites _ (some ⟨"customer"⟩) _).2.2.2.2.1 rfl

end Compiler

end SchemaTree
