import SchemaTree.Proofs.Catalog.Accepted
import SchemaTree.Proofs.Handlers.Standard
import SchemaTree.Proofs.Walk.Completed

/-!
# The tree unfolds the graph

The schema of a report is the graph of types, unfolded from the type of the alias.
Each schema of the tree is labelled: the root with the type of the alias, any other with
the type that the field around it refers to (`Schema.occurrences`).

* `Completed.unfolds`: **wherever a schema stands, it is, folded, the flat schema of its
  label**, so the walk and the flat schemas agree on all that a schema shows; and a field has
  a link exactly if it has a target.
* `report_unfolds`: the same for reports on an accepted catalog.
-/

namespace SchemaTree

namespace Compiler

/-- A field with a target has a schema inside or a deferred link, not both; a field without a target
has neither. -/
def LinkedToTarget (c : Compiler) (f : Field) : Prop :=
  match f.property.target? with
  | some u => (f.schema?.isSome ∧ f.reference? = none) ∨
      (f.schema? = none ∧ f.reference? = some (c.referenceTo u))
  | none => f.schema? = none ∧ f.reference? = none

/-- What a schema of a tree has to be, where it stands: labelled, linked to the targets of its
fields, and, folded, the flat schema of its label. -/
structure Unfolded (c : Compiler) (o : Occurrence) : Prop where
  labelled : ∃ t, o.label = some t ∧ ∀ trace, ((c.flat t).outcome trace).1 = .ok (c.fold o.schema)
  linked : ∀ f ∈ o.schema.fields, c.LinkedToTarget f

variable {c : Compiler} {s : Session} {t u : TypeId} {f : Field} {aliasName : String}

theorem Linked.linkedToTarget (h : c.Linked s t f) : c.LinkedToTarget f := by
  cases h with
  | plain hp =>
    rw [LinkedToTarget, Field.property_mk, hp]
    exact ⟨rfl, rfl⟩
  | nested hp hu =>
    rw [LinkedToTarget, Field.property_mk, hp]
    exact Or.inl ⟨rfl, rfl⟩
  | deferred hp hk hq hr =>
    rw [LinkedToTarget, Field.property_mk, hp]
    exact Or.inr ⟨rfl, rfl⟩

/-- **A schema with the heading of its type and with all fields linked is, folded, the flat schema
of its type.** -/
theorem Fills.flat_eq {x : Schema} (h : c.Fills s t x.fields)
    (hx : x.heading = c.heading (c.source.aliasFor t) t) (trace : Trace) :
    ((c.flat t).outcome trace).1 = .ok (c.fold x) := by
  obtain ⟨ds, hds, hmap⟩ := h.folded
  rw [flat_outcome, hds, fold, hmap, hx]
  rfl

/-- **All schemas of a report are unfolded**, if the alias of the root is the one that was asked
for. -/
theorem Completed.unfolds {r : Report} {z : Session} (h : c.Completed aliasName t r z)
    (ha : c.source.aliasFor t = aliasName) :
    ∀ o ∈ r.schema.occurrences (some t) 0, c.Unfolded o := by
  intro o ho
  obtain ⟨u, hlabel, hu, -⟩ := h.occurrence ho
  have hfill := h.sound.fills u o.schema hu
  exact ⟨⟨u, hlabel, hfill.flat_eq (h.heading_eq ha hu)⟩,
    fun f hf => (hfill.linked f hf).linkedToTarget⟩

/-- **A report on an accepted catalog unfolds the graph of types from the type of the alias.** -/
theorem report_unfolds {catalog : Catalog} (hc : catalog.Accepted) (base : String)
    (options : CompilerOptions) {r : Report}
    (h : ((ofCatalog catalog base options).report aliasName).1 = .ok r) :
    ∃ root, catalog.source.resolve aliasName = some root ∧
      ∀ o ∈ r.schema.occurrences (some root) 0, (ofCatalog catalog base options).Unfolded o := by
  obtain ⟨root, z, hroot, hz⟩ := report_completed h
  exact ⟨root, hroot, hz.unfolds (hc.aliasFor_resolve hroot)⟩

/-- A report with a shared type and a cycle. -/
theorem report_unfolds_sample :
    ∃ r, ((ofCatalog Catalog.sample defaultBase {}).report "order").1 = .ok r ∧
      ∃ root, Catalog.sample.source.resolve "order" = some root ∧
        ∀ o ∈ r.schema.occurrences (some root) 0,
          (ofCatalog Catalog.sample defaultBase {}).Unfolded o :=
  ⟨_, rfl, report_unfolds Catalog.accepted_sample defaultBase {} rfl⟩

end Compiler

end SchemaTree
