import SchemaTree.Proofs.Compiler.Checked
import SchemaTree.Proofs.Schema.Declared

/-!
# Emitted fields say what was declared

Every field of a tree that a compiler with the standard handlers emits was declared, and in the
document of the tree it says just what its declaration says, at every depth and however often the
tree was resolved.

* `Compiler.Aims`: a field has a link exactly if it has a target, and a deferred link names it.
* `Emits.legible`, `Emits.aims`: all schemas of an emitted tree are legible, and all fields aim.
* `emitted_declared`: **what stands at the place of a field is the body of its declaration with what
  it states written over it, and nothing else.**
-/

namespace SchemaTree

open Json

namespace Compiler

variable {c : Compiler} {only : Option TypeId} {s x : Schema} {t : TypeId} {f : Field}
  {aliasName : String}

/-- A field with a link exactly if it has a target, which a deferred link names. -/
structure Aims (c : Compiler) (f : Field) : Prop where
  linked : f.link = .none ↔ f.property.target? = none
  deferred : ∀ r, f.link = .deferred r → ∃ u, f.property.target? = some u ∧ r = c.referenceTo u

theorem Linked.aims {z : Session} (h : c.Linked z t f) : c.Aims f := by
  cases h with
  | plain hp => exact ⟨iff_of_true rfl hp, fun _ hl => nomatch hl⟩
  | nested hp _ =>
    refine ⟨iff_of_false (fun hl => nomatch hl) ?_, fun _ hl => nomatch hl⟩
    rw [Field.property_mk, hp]
    exact Option.some_ne_none _
  | @deferred p u hp _ _ _ =>
    refine ⟨iff_of_false (fun hl => nomatch hl) ?_, fun r hl => ?_⟩
    · rw [Field.property_mk, hp]
      exact Option.some_ne_none _
    · cases hl
      exact ⟨u, hp, rfl⟩

theorem aims_of_flatField {d : Descriptor} (h : c.flatField t d = some f) : c.Aims f := by
  obtain ⟨hp, hi⟩ := property_of_flatField h
  cases ht : (c.describe t d).target? with
  | none =>
    rw [flatField_of_plain hi ht] at h
    cases h
    exact ⟨iff_of_true rfl ht, fun _ hl => nomatch hl⟩
  | some u =>
    rw [flatField_of_target ht] at h
    cases h
    refine ⟨iff_of_false (fun hl => nomatch hl) ?_, fun r hl => ?_⟩
    · rw [Field.property_mk, ht]
      exact Option.some_ne_none u
    · cases hl
      exact ⟨u, ht, rfl⟩

theorem Aims.nested {p : Property} {l : Link} (h : c.Aims (.mk p l)) (hl : l ≠ .none)
    (sub : Schema) : c.Aims (.mk p (.nested sub)) := by
  have htarget : p.target? ≠ none := fun hp => hl (h.linked.mpr hp)
  exact ⟨iff_of_false (fun hn => nomatch hn) htarget, fun _ hr => nomatch hr⟩

/-- **All fields of an emitted tree aim.** -/
theorem Emits.aims (h : c.Emits aliasName s) (label : Option TypeId) :
    ∀ o ∈ s.occurrences label 0, ∀ f ∈ o.schema.fields, c.Aims f := by
  have hall : ∃ root, ∀ o ∈ s.occurrences (some root) 0, ∀ f ∈ o.schema.fields, c.Aims f := by
    refine h.induction (P := fun s => ∃ root, ∀ o ∈ s.occurrences (some root) 0,
      ∀ f ∈ o.schema.fields, c.Aims f) ?_ ?_
    · intro r hr
      obtain ⟨root, z, -, hz⟩ := report_completed hr
      refine ⟨root, fun o ho f hf => ?_⟩
      obtain ⟨u, -, hu, -⟩ := hz.occurrence ho
      exact ((hz.sound.fills u o.schema hu).linked f hf).aims
    · rintro y x only _ _ ⟨root, hy⟩ hx
      have hfields := ResolvesTo.forall_schemas (P := fun _ => True) (Q := c.Aims)
        (fun _ _ _ _ => trivial) (fun p l sub hl hf => hf.nested hl sub) ?hflat
        (resolveSchema_ok hx) fun o ho => ⟨trivial, hy o ho⟩
      case hflat =>
        refine fun p r t ds _ _ _ => ⟨trivial, fun f hf => ?_⟩
        obtain ⟨d, -, hd⟩ := List.mem_filterMap.mp hf
        exact aims_of_flatField hd
      exact ⟨root, fun o ho => (hfields o ho).2⟩
  obtain ⟨root, hroot⟩ := hall
  exact Schema.forall_mem_occurrences.mpr (Schema.forall_mem_occurrences.mp hroot)

/-- **All schemas of an emitted tree are legible.** -/
theorem Emits.legible (h : c.Emits aliasName s) (hc : c.KeepsNames) (hn : c.source.DistinctNames)
    (label : Option TypeId) : ∀ o ∈ s.occurrences label 0, o.schema.Legible := by
  have htidy : ∃ root, ∀ o ∈ s.occurrences (some root) 0, c.Tidy root o.schema := by
    refine h.induction (P := fun s => ∃ root, ∀ o ∈ s.occurrences (some root) 0,
      c.Tidy root o.schema) ?_ ?_
    · intro r hr
      obtain ⟨root, z, -, hz⟩ := report_completed hr
      refine ⟨root, fun o ho => ?_⟩
      obtain ⟨u, -, hu, hreach⟩ := hz.occurrence ho
      exact (hz.sound.fills u o.schema hu).tidy hc hn hreach
    · rintro y x only _ _ ⟨root, hy⟩ hx
      exact ⟨root, (resolveSchema_ok hx).tidy hc hn hy⟩
  obtain ⟨root, hroot⟩ := htidy
  exact Schema.forall_mem_occurrences.mpr
    (Schema.forall_mem_occurrences.mp fun o ho => (hroot o ho).legible)

theorem Emits.find?_place (h : c.Emits aliasName s) (hc : c.KeepsNames)
    (hn : c.source.DistinctNames) {place : List String × Field} (hplace : place ∈ s.places []) :
    Pointer.find? s.toValue place.1 = some place.2.toValue :=
  Schema.FoundAt.find?_of_mem_places s.foundAt_root (h.legible hc hn none) place hplace

variable (source : TypeSource) (identifier : String → String) (options : CompilerOptions)

/-- **A field of a tree that is emitted with standard handlers was declared**, and not to be
ignored. -/
theorem Emits.exists_described (h : (standard source identifier options).Emits aliasName s)
    {o : Occurrence} (ho : o ∈ s.occurrences none 0) (hf : f ∈ o.schema.fields) :
    ∃ t ds d, source.fields t = .ok ds ∧ d ∈ ds ∧ d.annotations.ignore = false ∧
      f.property = Handlers.described d := by
  obtain ⟨root, hdescribed⟩ := h.described
  obtain ⟨t, ds, hds, d, hd, hp, hi⟩ := hdescribed.describesAll none o ho f hf
  rw [hp, describe_standard, Handlers.ignored_described] at hi
  rw [describe_standard] at hp
  exact ⟨t, ds, d, hds, hd, hi, hp⟩

/-- **Every emitted field says what its declaration says, and nothing else.**  Each field of a tree
that is compiled, reported or resolved has a place, and was declared by some type.  At that place
stands the body of the declared field, as it is linked, with all that the declaration states written
over it.  The field has a link exactly if it has a target, and a deferred one names the target. -/
theorem emitted_declared (hn : source.DistinctNames)
    (h : (standard source identifier options).Emits aliasName s) :
    (∀ o ∈ s.occurrences none 0, ∀ f ∈ o.schema.fields, ∃ place ∈ s.places [], place.2 = f) ∧
    ∀ place ∈ s.places [], ∃ t ds d, source.fields t = .ok ds ∧ d ∈ ds ∧
      d.annotations.ignore = false ∧ place.2.property.declared = some d ∧
      Pointer.find? s.toValue place.1 =
        some (.object (Members.overlaid d.stated (d.body place.2.link))) ∧
      (place.2.link = .none ↔ (Handlers.described d).target? = none) ∧
      ∀ r, place.2.link = .deferred r →
        ∃ u, (Handlers.described d).target? = some u ∧ r = identifier (source.aliasFor u) := by
  refine ⟨fun o ho f hf => (Schema.mem_places s [] none 0 f).mpr ⟨o, ho, hf⟩, ?_⟩
  intro place hplace
  obtain ⟨o, ho, hf⟩ := (Schema.mem_places s [] none 0 place.2).mp ⟨place, hplace, rfl⟩
  obtain ⟨t, ds, d, hds, hd, hi, hp⟩ := h.exists_described source identifier options ho hf
  have haims := h.aims none o ho place.2 hf
  refine ⟨t, ds, d, hds, hd, hi, ?_, ?_, ?_, ?_⟩
  · rw [hp, Handlers.declared_described]
  · rw [h.find?_place (keepsNames_standard _ _ _) hn hplace, Field.toValue,
      Field.render_described hp]
  · rw [← hp]
    exact haims.linked
  · rw [← hp]
    exact haims.deferred

/-- Orders refer to themselves and to lines; the lines of an order are made one object, and its
contact a text. -/
def orders : TypeSource where
  resolve := fun a => if a = "order" then some ⟨"Order"⟩ else none
  aliasOf := fun t => if t = ⟨"Order"⟩ then some "order" else none
  fields := fun t => .ok <|
    if t = ⟨"Order"⟩ then [
      ⟨"parents", .collection (.entity ⟨"Order"⟩), { description := some "earlier orders" }⟩,
      ⟨"lines", .collection (.entity ⟨"Line"⟩), { kind := some .object, title := some "All" }⟩,
      ⟨"grid", .collection (.collection (.entity ⟨"Line"⟩)), { required := true }⟩,
      ⟨"contact_email", .entity ⟨"Line"⟩, { kind := some .string, choices := some [] }⟩]
    else [⟨"count", .kind .integer, { minimum := some (.ofInt 1), fallback := some (.bool true) }⟩]

/-- What stands in the document of orders, and under which pointers. -/
theorem emitted_declared_orders : orders.DistinctNames ∧ ∃ s,
    ((standard orders (urlFor defaultBase) {}).compile "order").1 = .ok s ∧
    (s.places []).map (·.1) = [["properties", "parents"], ["properties", "lines"],
      ["properties", "lines", "properties", "count"], ["properties", "grid"],
      ["properties", "contact_email"]] ∧
    ∀ place ∈ s.places [], ∃ t ds d, orders.fields t = .ok ds ∧ d ∈ ds ∧
      Pointer.find? s.toValue place.1 =
        some (.object (Members.overlaid d.stated (d.body place.2.link))) := by
  have hn : orders.DistinctNames := by
    intro t fields ht
    cases ht
    split <;> decide
  obtain ⟨s, hs, hplaces⟩ : ∃ s, ((standard orders (urlFor defaultBase) {}).compile "order").1 =
      .ok s ∧ (s.places []).map (·.1) = [["properties", "parents"], ["properties", "lines"],
        ["properties", "lines", "properties", "count"], ["properties", "grid"],
        ["properties", "contact_email"]] := ⟨_, rfl, by decide⟩
  refine ⟨hn, s, hs, hplaces, fun place hplace => ?_⟩
  obtain ⟨-, hall⟩ := emitted_declared orders (urlFor defaultBase) {} hn (Emits.compiled hs)
  obtain ⟨t, ds, d, hds, hd, -, -, hfind, -⟩ := hall place hplace
  exact ⟨t, ds, d, hds, hd, hfind⟩

/-- The title of the declaration takes the place of that of the schema inside. -/
example : (((standard orders (urlFor defaultBase) {}).compile "order").1.toOption.bind fun s =>
    Pointer.find? s.toValue ["properties", "lines"]) = some (.object [
      ("title", .string "All"), ("id", .string "http://localhost/schemas/Line.json#"),
      ("type", .string "object"),
      ("properties", .object [("count", .object [("type", .string "integer"),
        ("minimum", .number (.integer 1)), ("default", .bool true)])])]) := rfl

end Compiler

end SchemaTree
