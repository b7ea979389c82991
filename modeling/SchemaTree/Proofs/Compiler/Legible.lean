import SchemaTree.Proofs.Catalog.Accepted
import SchemaTree.Proofs.Handlers.Standard
import SchemaTree.Proofs.Schema.Document
import SchemaTree.Proofs.Walk.Completed

/-!
# Compiled schemas are legible

If the declared fields of each type have distinct names, and the handlers keep names, then
nothing of a compiled schema is hidden in its document: fields keep apart, and only fields
with a target have a link.

* `legible_flatSchema`: flat schemas are legible.
* `Completed.legible`: **all schemas of a report are legible.**
-/

namespace SchemaTree

namespace Compiler

/-- Whether the handlers leave the names of declared fields alone. -/
def KeepsNames (c : Compiler) : Prop := ∀ t d, (c.describe t d).name = d.name

theorem keepsNames_standard (source : TypeSource) (identifier : String → String)
    (options : CompilerOptions) : (standard source identifier options).KeepsNames := by
  intro t d
  rw [describe_standard, Handlers.name_described]

variable {c : Compiler} {s : Session} {t u : TypeId} {f : Field} {aliasName : String}

theorem kind_of_target {p : Property} (h : p.target? = some u) :
    p.kind = some .object ∨ p.kind = some .array := by
  unfold Property.target? at h
  split at h
  · cases h
  · split at h
    · exact Or.inl ‹_›
    · exact Or.inr ‹_›
    · cases h

theorem KeepsNames.sublist (hc : c.KeepsNames) (t : TypeId) (ds : List Descriptor) :
    ((ds.filterMap (c.flatField t)).map (·.property.name)).Sublist (ds.map (·.name)) := by
  induction ds with
  | nil => exact List.Sublist.slnil
  | cons d ds ih =>
    cases hd : c.flatField t d with
    | none =>
      rw [List.filterMap_cons_none hd]
      exact ih.cons _
    | some f =>
      rw [List.filterMap_cons_some hd, List.map_cons, (property_of_flatField hd).1, hc t d]
      exact ih.cons_cons _

/-- **Flat schemas are legible.** -/
theorem legible_flatSchema (hc : c.KeepsNames) (hn : c.source.DistinctNames)
    {ds : List Descriptor} (hds : c.source.fields t = .ok ds) : (c.flatSchema t ds).Legible := by
  constructor
  case live =>
    intro f hf
    obtain ⟨d, -, hd⟩ := List.mem_filterMap.mp hf
    rw [(property_of_flatField hd).1, (property_of_flatField hd).2]
  case names => exact (hn t ds hds).sublist (hc.sublist t ds)
  case kinds =>
    intro f hf hl
    obtain ⟨d, -, hd⟩ := List.mem_filterMap.mp hf
    rcases link_of_flatField hd with hnone | ⟨u, hu, -⟩
    · exact absurd hnone hl
    · rw [(property_of_flatField hd).1]
      exact kind_of_target hu

theorem Linked.exists_target (h : c.Linked s t f) (hl : f.link ≠ .none) :
    ∃ u, f.property.target? = some u := by
  cases h with
  | plain hp => exact absurd rfl hl
  | nested hp hu => exact ⟨_, hp⟩
  | deferred hp hk hq hr => exact ⟨_, hp⟩

/-- **A schema is legible if its fields are right.** -/
theorem Fills.legible {x : Schema} (h : c.Fills s t x.fields) (hc : c.KeepsNames)
    (hn : c.source.DistinctNames) : x.Legible := by
  constructor
  case live =>
    intro f hf
    obtain ⟨ds, -, d, -, -, hi⟩ := h.exists_declared hf
    exact hi
  case names =>
    obtain ⟨ds, hds, hmap⟩ := h.folded
    have hnames : x.fields.map (·.property.name) =
        (ds.filterMap (c.flatField t)).map (·.property.name) := by
      rw [← hmap, List.map_map]
      exact List.map_congr_left fun f _ => by rw [Function.comp_apply, property_foldField]
    rw [hnames]
    exact (hn t ds hds).sublist (hc.sublist t ds)
  case kinds =>
    intro f hf hl
    obtain ⟨u, hu⟩ := (h.linked f hf).exists_target hl
    exact kind_of_target hu

/-- **All schemas of a report are legible.** -/
theorem Completed.legible {r : Report} {z : Session} (h : c.Completed aliasName t r z)
    (hc : c.KeepsNames) (hn : c.source.DistinctNames) :
    ∀ o ∈ r.schema.occurrences (some t) 0, o.schema.Legible := by
  intro o ho
  obtain ⟨u, -, hu, -⟩ := h.occurrence ho
  exact (h.sound.fills u o.schema hu).legible hc hn

end Compiler

end SchemaTree
