import SchemaTree.Proofs.Catalog.Accepted
import SchemaTree.Proofs.Compiler.Legible
import SchemaTree.Proofs.Resolution.Resolves

/-!
# No reference dangles

A reference is written while its type is unfinished, in schemas that are attached elsewhere
later, and resolving brings in new references.  In all documents that come out, each of
them is the identifier of a schema of the same document.

The invariant (`Compiler.Closed`) is about the types that the root leads to, not about those that
were deferred: **every one of them has a schema in the tree, and all references go to
them.**

* `Emits.induction`: what holds of reports and is kept by resolving holds of all emitted trees.
* `Completed.closed`: the tree of a report is closed.
* `ResolvesTo.closed`: resolving keeps it so.
* `Closed.selfContained`: what this means for the document.
* `references_resolve`: for all that a compiler emits.
-/

namespace SchemaTree

open Json

namespace Compiler

/-- What a compiler emits for an alias: what it compiles or reports, and what resolving makes of
it, any number of times. -/
inductive Emits (c : Compiler) (aliasName : String) : Schema → Prop
  | compiled {s : Schema} (h : (c.compile aliasName).1 = .ok s) : Emits c aliasName s
  | reported {r : Report} (h : (c.report aliasName).1 = .ok r) : Emits c aliasName r.schema
  | resolved {s x : Schema} (hs : Emits c aliasName s) (only : Option TypeId)
      (h : (c.resolve only s).1 = .ok x) : Emits c aliasName x

/-! ## The invariant -/

/-- A field that can be seen, and that refers to a type the root leads to if it is deferred. -/
structure Points (c : Compiler) (root : TypeId) (f : Field) : Prop where
  live : f.property.ignored = false
  kind : f.link ≠ .none → f.property.kind = some .object ∨ f.property.kind = some .array
  deferred : ∀ r, f.link = .deferred r → ∃ u, f.property.object = some u ∧
    r = c.referenceTo u ∧ Reaches c.Follows root u

/-- A schema whose fields have distinct names and all point to what the root leads to. -/
structure Tidy (c : Compiler) (root : TypeId) (s : Schema) : Prop where
  names : (s.fields.map (·.property.name)).Nodup
  points : ∀ f ∈ s.fields, c.Points root f

/-- A tree whose references go to types that the root leads to, and which has a schema for each of
these. -/
structure Closed (c : Compiler) (root : TypeId) (s : Schema) : Prop where
  tidy : ∀ o ∈ s.occurrences (some root) 0, c.Tidy root o.schema
  present : ∀ u, Reaches c.Follows root u →
    ∃ o ∈ s.occurrences (some root) 0, o.schema.heading.id = some (c.referenceTo u)

variable {c : Compiler} {root t : TypeId} {only : Option TypeId}
  {s x : Schema} {aliasName : String}

theorem Tidy.legible (h : c.Tidy root s) : s.Legible :=
  ⟨fun f hf => (h.points f hf).live, h.names, fun f hf => (h.points f hf).kind⟩

/-- **In the document of a closed tree no reference dangles.** -/
theorem Closed.selfContained (h : c.Closed root s) : SelfContained s.toValue := by
  intro r hr
  obtain ⟨o, ho, f, hf, ref, hl, href⟩ := Schema.exists_deferred_of_shows (some root) 0 hr
  cases href
  obtain ⟨u, -, rfl, hu⟩ := ((h.tidy o ho).points f hf).deferred r hl
  obtain ⟨o', ho', hid⟩ := h.present u hu
  exact Schema.shows_id (fun o ho => (h.tidy o ho).legible) ho' hid

/-! ## The tree of a report is closed -/

theorem Fills.tidy {z : Session} (h : c.Fills z t s.fields) (hc : c.KeepsNames)
    (hn : c.source.DistinctNames) (ht : Reaches c.Follows root t) : c.Tidy root s := by
  have hleg := h.legible hc hn
  refine ⟨hleg.names, fun f hf => ⟨hleg.live f hf, hleg.kinds f hf, fun r hl => ?_⟩⟩
  obtain ⟨u, hu, rfl, -, -, -⟩ := (h.linked f hf).of_deferred hl
  obtain ⟨d, hd, -⟩ := h.exists_follows hf hu
  exact ⟨u, object_of_target hu, rfl, ht.step hd⟩

/-- **The tree of a report is closed.** -/
theorem Completed.closed {r : Report} {z : Session} (h : c.Completed aliasName root r z)
    (hc : c.KeepsNames) (hn : c.source.DistinctNames)
    (ha : c.source.aliasFor root = aliasName) : c.Closed root r.schema := by
  constructor
  case tidy =>
    intro o ho
    obtain ⟨u, -, hu, hreach⟩ := h.occurrence ho
    exact (h.sound.fills u o.schema hu).tidy hc hn hreach
  case present =>
    intro u hu
    obtain ⟨o, ho, -, hx⟩ := h.occurs_of_reaches hu
    exact ⟨o, ho, by rw [h.heading_eq ha hx]; rfl⟩

/-! ## Resolving keeps a tree closed -/

/-- **The references of a flat schema go to types that its own type leads to.** -/
theorem tidy_flatSchema (hc : c.KeepsNames) (hn : c.source.DistinctNames)
    {ds : List Descriptor} (hds : c.source.fields t = .ok ds) (ht : Reaches c.Follows root t) :
    c.Tidy root (c.flatSchema t ds) := by
  have hleg := legible_flatSchema hc hn hds
  refine ⟨hleg.names, fun f hf => ⟨hleg.live f hf, hleg.kinds f hf, fun r hl => ?_⟩⟩
  obtain ⟨d, hmem, hd⟩ := List.mem_filterMap.mp hf
  rcases link_of_flatField hd with hnone | ⟨u, hu, hdef⟩
  · cases hnone.symm.trans hl
  · cases hdef.symm.trans hl
    have hfollow : c.Follows ⟨t, d, u⟩ := ⟨⟨ds, hds, hmem⟩, hu⟩
    refine ⟨u, ?_, rfl, ht.step hfollow⟩
    rw [(property_of_flatField hd).1]
    exact object_of_target hu

theorem Points.nested {p : Property} {l : Link} (h : c.Points root (.mk p l)) (hl : l ≠ .none)
    (sub : Schema) : c.Points root (.mk p (.nested sub)) :=
  ⟨h.live, fun _ => h.kind hl, fun _ hr => nomatch hr⟩

/-- **Resolving keeps all schemas of a tree tidy.** -/
theorem ResolvesTo.tidy (h : c.ResolvesTo only s x) (hc : c.KeepsNames)
    (hn : c.source.DistinctNames) {label : Option TypeId} {depth : Nat}
    (hs : ∀ o ∈ s.occurrences label depth, c.Tidy root o.schema) :
    ∀ o ∈ x.occurrences label depth, c.Tidy root o.schema := by
  have hpoints := ResolvesTo.forall_schemas
    (P := fun y => (y.fields.map (·.property.name)).Nodup) (Q := c.Points root) ?hroot
    (fun p l sub hl hf => hf.nested hl sub) ?hflat h
    fun o ho => ⟨(hs o ho).names, (hs o ho).points⟩
  case hroot =>
    intro y y' hy hnames
    rw [hy.map_name]
    exact hnames
  case hflat =>
    -- The type of the flat schema is the one that the deferred field pointed to.
    intro p r t ds ht hds hf
    obtain ⟨u, hu, -, hreach⟩ := hf.deferred r rfl
    cases ht.symm.trans hu
    have htidy := tidy_flatSchema hc hn hds hreach
    exact ⟨htidy.names, htidy.points⟩
  exact fun o ho => ⟨(hpoints o ho).1, (hpoints o ho).2⟩

/-- **Resolving keeps a tree closed.** -/
theorem ResolvesTo.closed (h : c.ResolvesTo only s x) (hc : c.KeepsNames)
    (hn : c.source.DistinctNames) (hs : c.Closed root s) : c.Closed root x := by
  constructor
  case tidy => exact h.tidy hc hn hs.tidy
  case present =>
    intro u hu
    obtain ⟨o, ho, hid⟩ := hs.present u hu
    obtain ⟨o', ho', hh⟩ := h.exists_heading (some root) 0 o ho
    exact ⟨o', ho', by rw [hh]; exact hid⟩

/-- **Induction over what is emitted**: what holds of reported trees and is kept by resolving holds
of all trees that are emitted. -/
theorem Emits.induction {P : Schema → Prop} (h : c.Emits aliasName s)
    (reported : ∀ r, (c.report aliasName).1 = .ok r → P r.schema)
    (resolved : ∀ y x only trace trace', P y →
      (c.resolveSchema only y).outcome trace = (.ok x, trace') → P x) : P s := by
  induction h with
  | compiled h =>
    rcases c.compile_of_report aliasName with ⟨e, -, he⟩ | ⟨r, trace, hr, ⟨-, hs⟩ | ⟨-, hs⟩⟩
    · cases he.symm.trans h
    · cases hs.symm.trans h
      exact reported r hr
    · rw [hs] at h
      exact resolved r.schema _ none trace _ (reported r hr) (Prod.ext h rfl)
  | reported h => exact reported _ h
  | resolved _ only h ih => exact resolved _ _ only {} _ ih (Prod.ext h rfl)

/-- **All that a compiler emits is closed**, if its handlers keep names, declared names are
distinct, and the type of the alias has no other alias. -/
theorem Emits.closed (h : c.Emits aliasName s) (hc : c.KeepsNames) (hn : c.source.DistinctNames)
    (ha : ∀ t, c.source.resolve aliasName = some t → c.source.aliasFor t = aliasName) :
    ∃ root, c.Closed root s := by
  refine h.induction (P := fun s => ∃ root, c.Closed root s) ?_ ?_
  · intro r hr
    obtain ⟨root, z, hroot, hz⟩ := report_completed hr
    exact ⟨root, hz.closed hc hn (ha root hroot)⟩
  · rintro y x only _ _ ⟨root, hclosed⟩ hx
    exact ⟨root, (resolveSchema_ok hx).closed hc hn hclosed⟩

/-- **No reference dangles** in any document that comes out for an alias: neither with an accepted
catalog, nor with any source of types in which the fields of a type have distinct names and the type
of the alias has that alias. -/
theorem references_resolve (aliasName : String) (options : CompilerOptions) (s : Schema) :
    (∀ (catalog : Catalog) (base : String), catalog.Accepted →
      (ofCatalog catalog base options).Emits aliasName s → SelfContained s.toValue) ∧
    ∀ (source : TypeSource) (identifier : String → String), source.DistinctNames →
      (∀ t, source.resolve aliasName = some t → source.aliasFor t = aliasName) →
      (standard source identifier options).Emits aliasName s → SelfContained s.toValue := by
  constructor
  · intro catalog base hcat h
    obtain ⟨root, hs⟩ := h.closed (keepsNames_standard _ _ _) hcat.distinctNames
      fun t ht => hcat.aliasFor_resolve ht
    exact hs.selfContained
  · intro source identifier hn ha h
    obtain ⟨root, hs⟩ := h.closed (keepsNames_standard _ _ _) hn ha
    exact hs.selfContained

/-- Flattened cycles, resolved once more for one type only. -/
theorem references_resolve_sample :
    ∃ s x, ((ofCatalog Catalog.sample defaultBase { policy := .flatten }).compile "order").1 =
        .ok s ∧
      ((ofCatalog Catalog.sample defaultBase { policy := .flatten }).resolve
        (some ⟨"customer"⟩) s).1 = .ok x ∧ SelfContained x.toValue :=
  ⟨_, _, rfl, rfl, (references_resolve "order" { policy := .flatten } _).1 Catalog.sample
    defaultBase Catalog.accepted_sample
    (Emits.resolved (Emits.compiled rfl) (some ⟨"customer"⟩) rfl)⟩

end Compiler

end SchemaTree
