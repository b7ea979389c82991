import SchemaTree.Proofs.Catalog.Bounds
import SchemaTree.Proofs.Compiler.References
import SchemaTree.Proofs.Handlers.Assorted
import SchemaTree.Proofs.Schema.Checked

/-!
# Emitted documents are checked

Compilers with standard handlers, in any number and order, write documents that keep all rules of a
check, up to the patterns of their fields.

* `Emits.described`: all fields of a tree are described from declared ones, also those that come
  from resolving.
* `Emits.proper`: **so all schemas of a tree are proper**, if the catalog comes from JSON.
* `compiled_checked`: a check of a compiled document finds the rejected patterns and nothing else.
-/

namespace SchemaTree

open Json

namespace Compiler

variable {c : Compiler} {root t : TypeId} {only : Option TypeId} {s x : Schema} {aliasName : String}

/-! ## All fields are described -/

/-- A field that was described from a declared one, and is not ignored. -/
def Describes (c : Compiler) (f : Field) : Prop :=
  ∃ t ds, c.source.fields t = .ok ds ∧ ∃ d ∈ ds, f.property = c.describe t d ∧
    f.property.ignored = false

/-- A schema whose fields were all described. -/
def DescribesAll (c : Compiler) (s : Schema) : Prop := ∀ f ∈ s.fields, c.Describes f

theorem describesAll_flatSchema {ds : List Descriptor} (hds : c.source.fields t = .ok ds) :
    c.DescribesAll (c.flatSchema t ds) := by
  intro f hf
  obtain ⟨d, hd, hfd⟩ := List.mem_filterMap.mp hf
  obtain ⟨hp, hi⟩ := property_of_flatField hfd
  exact ⟨t, ds, hds, d, hd, hp, by rw [hp, hi]⟩

theorem Fills.describesAll {z : Session} (h : c.Fills z t s.fields) : c.DescribesAll s :=
  fun _ hf => ⟨t, h.exists_declared hf⟩

/-- A tree whose root is the type of an alias with all its fields, and all of whose fields were
described. -/
structure Described (c : Compiler) (aliasName : String) (root : TypeId) (s : Schema) : Prop where
  resolve : c.source.resolve aliasName = some root
  heading : s.heading = c.heading aliasName root
  declared : ∀ ds, c.source.fields root = .ok ds → ∀ d ∈ ds, (c.describe root d).ignored = false →
    ∃ f ∈ s.fields, f.property = c.describe root d
  fields : ∀ o ∈ s.occurrences (some root) 0, c.DescribesAll o.schema

/-- **Resolving keeps fields described**, and attaches none that is not. -/
theorem ResolvesTo.described (h : c.ResolvesTo only s x) (hs : c.Described aliasName root s) :
    c.Described aliasName root x := by
  refine ⟨hs.resolve, h.1.trans hs.heading, fun ds hds d hd hi => ?_, fun o ho => ?_⟩
  · obtain ⟨f, hf, hp⟩ := hs.declared ds hds d hd hi
    have hmem := List.mem_map_of_mem (f := Field.property) hf
    rw [← h.2.map_property] at hmem
    obtain ⟨f', hf', hp'⟩ := List.mem_map.mp hmem
    exact ⟨f', hf', hp'.trans hp⟩
  · have hall := ResolvesTo.forall_schemas (P := fun _ => True) (Q := c.Describes)
      (fun _ _ _ _ => trivial) (fun p l sub _ hf => hf)
      (fun p r t ds _ hds _ => ⟨trivial, describesAll_flatSchema hds⟩) h
      fun o ho => ⟨trivial, hs.fields o ho⟩
    exact (hall o ho).2

/-- **All fields of a tree that is emitted were described.** -/
theorem Emits.described (h : c.Emits aliasName s) : ∃ root, c.Described aliasName root s := by
  refine h.induction (P := fun s => ∃ root, c.Described aliasName root s) ?_ ?_
  · intro r hr
    obtain ⟨root, z, hroot, hz⟩ := report_completed hr
    refine ⟨root, hroot, hz.rootHeading, fun ds hds d hd hi => ?_, fun o ho => ?_⟩
    · exact (hz.sound.fills root r.schema hz.root).exists_field_of_declared hds hd hi
    · obtain ⟨u, -, hu, -⟩ := hz.occurrence ho
      exact (hz.sound.fills u o.schema hu).describesAll
  · rintro y x only _ _ ⟨root, hdescribed⟩ hx
    exact ⟨root, (resolveSchema_ok hx).described hdescribed⟩

/-! ## All schemas are proper -/

theorem Describes.proper {f : Field} (h : c.Describes f) (hc : c.Plain)
    (hbounds : ∀ t ds, c.source.fields t = .ok ds → ∀ d ∈ ds, d.annotations.FiniteBounds) :
    f.Proper := by
  obtain ⟨t, ds, hds, d, hd, hp, -⟩ := h
  have hderived := hc.derived_describe t d
  have hfinite := hbounds t ds hds d hd
  constructor
  case kind =>
    rw [hp]
    exact c.isSome_kind_describe t d
  case minimum =>
    intro b hb
    rw [hp] at hb
    exact hfinite.minimum b (hderived.minimum b hb)
  case maximum =>
    intro b hb
    rw [hp] at hb
    exact hfinite.maximum b (hderived.maximum b hb)

theorem Described.describesAll (h : c.Described aliasName root s) (label : Option TypeId) :
    ∀ o ∈ s.occurrences label 0, c.DescribesAll o.schema :=
  Schema.forall_mem_occurrences.mpr (Schema.forall_mem_occurrences.mp h.fields)

/-- **All schemas of a tree that is emitted are proper.** -/
theorem Emits.proper (h : c.Emits aliasName s) (hc : c.Plain) (hn : c.source.DistinctNames)
    (ha : ∀ t, c.source.resolve aliasName = some t → c.source.aliasFor t = aliasName)
    (hbounds : ∀ t ds, c.source.fields t = .ok ds → ∀ d ∈ ds, d.annotations.FiniteBounds)
    (label : Option TypeId) : ∀ o ∈ s.occurrences label 0, o.schema.Proper := by
  obtain ⟨root, hclosed⟩ := h.closed hc.keepsNames hn ha
  obtain ⟨root', hdescribed⟩ := h.described
  have htidy : ∀ o ∈ s.occurrences label 0, o.schema.Legible :=
    Schema.forall_mem_occurrences.mpr (Schema.forall_mem_occurrences.mp fun o ho =>
      (hclosed.tidy o ho).legible)
  exact fun o ho => ⟨htidy o ho, fun f hf =>
    (hdescribed.describesAll label o ho f hf).proper hc hbounds⟩

theorem Emits.proper_withHandlers {catalog : Catalog} {base : String} {options : CompilerOptions}
    {handlers : List (Handler × Int)}
    (h : (withHandlers catalog base options handlers).Emits aliasName s) (hcat : catalog.FromJson)
    (hs : ∀ e ∈ handlers, e.1 ∈ Handlers.standard.map (·.1)) :
    ∀ o ∈ s.occurrences none 0, o.schema.Proper :=
  h.proper (plain_withHandlers catalog base options hs) hcat.accepted.distinctNames
    (fun _ ht => hcat.accepted.aliasFor_resolve ht) (fun _ _ hds => hcat.finiteBounds hds) none

/-- **A check of a document that is emitted finds one violation for each field with a rejected
pattern.** -/
theorem Emits.document_toValue (h : c.Emits aliasName s)
    (hproper : ∀ o ∈ s.occurrences none 0, o.schema.Proper) (rejection : String → Option String) :
    Check.document rejection s.toValue = s.violations rejection [] := by
  obtain ⟨root, hdescribed⟩ := h.described
  have hkind : s.heading.kind = .object := by rw [hdescribed.heading]; rfl
  have hmeta : s.heading.metaSchema.isSome = true := by rw [hdescribed.heading]; rfl
  exact Schema.document_toValue hproper hkind hmeta

/-- **A check of a compiled document finds the rejected patterns and nothing else**: none exactly if
every pattern in the tree is accepted, and otherwise one violation for each occurrence of a field
with a rejected pattern.  They come in the order of the document, and the pointer of each leads to
its field. -/
theorem compiled_checked (catalog : Catalog) (base : String) (options : CompilerOptions)
    (handlers : List (Handler × Int)) (aliasName : String) (s : Schema)
    (rejection : String → Option String) (hcat : catalog.FromJson)
    (hs : ∀ e ∈ handlers, e.1 ∈ Handlers.standard.map (·.1))
    (h : ((withHandlers catalog base options handlers).compile aliasName).1 = .ok s) :
    (Check.document rejection s.toValue = [] ↔
      ∀ o ∈ s.occurrences none 0, ∀ f ∈ o.schema.fields, ∀ p, f.property.pattern = some p →
        rejection p = none) ∧
    Check.document rejection s.toValue = s.violations rejection [] ∧
    ((s.places []).map (·.1)).Sublist (Pointer.all s.toValue) ∧
    ∀ place ∈ s.places [], Pointer.parse (Pointer.text place.1) = place.1 ∧
      Pointer.find? s.toValue place.1 = some place.2.toValue := by
  have hemits : (withHandlers catalog base options handlers).Emits aliasName s := .compiled h
  have hproper := hemits.proper_withHandlers hcat hs
  have hchecked : Check.document rejection s.toValue = s.violations rejection [] :=
    hemits.document_toValue hproper rejection
  have hlegible : ∀ o ∈ s.occurrences none 0, o.schema.Legible :=
    fun o ho => (hproper o ho).toLegible
  refine ⟨?_, hchecked, Schema.places_sublist_toValue hlegible,
    fun place hplace => ⟨Pointer.parse_text place.1, ?_⟩⟩
  · rw [hchecked]
    exact s.violations_eq_nil_iff rejection [] none 0
  · exact s.foundAt_root.find?_of_mem_places hlegible place hplace

/-- A catalog file with two patterns and a bound: users have tags, which refer back to users. -/
def patterned : Value :=
  .object [("types", .object [
    ("user", .object [("fields", .array [
      .object [("name", .string "a/b"), ("type", .string "string"), ("pattern", .string "("),
        ("minimum", .number (.integer 1))],
      .object [("name", .string "tags"), ("type", .string "array"), ("items", .string "tag")]])]),
    ("tag", .object [("fields", .array [
      .object [("name", .string "label"), ("type", .string "string"), ("pattern", .string "(")],
      .object [("name", .string "owner"), ("type", .string "user")]])])])]

/-- Handlers in another order than the standard one, and one of them twice. -/
def shuffled : List (Handler × Int) :=
  [(Handlers.annotated, 7), (Handlers.declaredType, 7), (Handlers.annotated, -1)]

/-- What a check makes of the document for users. -/
theorem compiled_checked_sample :
    ∃ catalog s, Catalog.FromJson catalog ∧
      (∀ e ∈ shuffled, e.1 ∈ Handlers.standard.map (·.1)) ∧
      ((withHandlers catalog defaultBase {} shuffled).compile "user").1 = .ok s ∧
      (Check.document (fun _ => some "unclosed group") s.toValue = [] ↔
        ∀ o ∈ s.occurrences none 0, ∀ f ∈ o.schema.fields, ∀ p, f.property.pattern = some p →
          some "unclosed group" = none) ∧
      Check.document (fun _ => some "unclosed group") s.toValue =
        s.violations (fun _ => some "unclosed group") [] ∧
      ((s.places []).map (·.1)).Sublist (Pointer.all s.toValue) ∧
      ∀ place ∈ s.places [], Pointer.parse (Pointer.text place.1) = place.1 ∧
        Pointer.find? s.toValue place.1 = some place.2.toValue := by
  have hregular : patterned.Regular := by
    simp [patterned, Value.Regular, Value.AllRegular, Value.MembersRegular, Number.Regular]
  have hcompiles : (Catalog.ofValue patterned).toOption.map (fun catalog =>
      ((withHandlers catalog defaultBase {} shuffled).compile "user").1.isOk) = some true := by
    decide +kernel
  have hshuffled : ∀ e ∈ shuffled, e.1 ∈ Handlers.standard.map (·.1) := by
    simp [shuffled, Handlers.standard]
  cases hcat : Catalog.ofValue patterned with
  | error e =>
    rw [hcat] at hcompiles
    cases hcompiles
  | ok catalog =>
    rw [hcat] at hcompiles
    have hfrom : catalog.FromJson := .ofValue hregular hcat
    cases hs : ((withHandlers catalog defaultBase {} shuffled).compile "user").1 with
    | error e =>
      have hnot : ((withHandlers catalog defaultBase {} shuffled).compile "user").1.isOk = true :=
        Option.some.inj hcompiles
      rw [hs] at hnot
      cases hnot
    | ok s =>
      exact ⟨catalog, s, hfrom, hshuffled, hs,
        compiled_checked catalog defaultBase {} shuffled "user" s _ hfrom hshuffled hs⟩

/-- The pointers follow the nesting, with escaped names. -/
example : (Catalog.ofValue patterned).toOption.bind (fun catalog =>
    ((withHandlers catalog defaultBase {} shuffled).compile "user").1.toOption.map fun s =>
      (Check.document (fun _ => some "unclosed group") s.toValue).map (·.pointer)) =
    some ["/properties/a~1b", "/properties/tags/items/properties/label"] := by
  decide +kernel

end Compiler

end SchemaTree
