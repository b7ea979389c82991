import SchemaTree.Proofs.Json.Members
import SchemaTree.Proofs.Schema.Occurrences

/-!
# Documents of schemas

A value in a document stands in a *schema position* (`Json.SchemaPosition`) if it is the whole
document, or a property or the items of an object in a schema position.  What stands inside a
default or a choice is not in a schema position, whatever it looks like.  `Json.Shows`
says which members the objects in schema positions have.

* `Schema.exists_deferred_of_shows`: **every `$ref` of a document is that of a deferred
  field.**
* `Schema.shows_reference`, `Schema.shows_id`: in the document of a *legible* schema, all
  deferred fields and all identifiers can be seen.  A schema is legible where its
  fields have distinct names and are not ignored, and only fields with a target have a link
  (`Schema.Legible`).
-/

namespace SchemaTree

open Json

/-! ## Schema positions -/

namespace Json

/-- The values of a document that stand where a schema is expected. -/
inductive SchemaPosition (doc : Value) : Value → Prop
  | root : SchemaPosition doc doc
  | property {ms ps : Members} {k : String} {v : Value} (h : SchemaPosition doc (.object ms))
      (hp : Members.get? ms "properties" = some (.object ps)) (hv : Members.get? ps k = some v) :
      SchemaPosition doc v
  | items {ms : Members} {v : Value} (h : SchemaPosition doc (.object ms))
      (hv : Members.get? ms "items" = some v) : SchemaPosition doc v

/-- Whether an object in a schema position has a member. -/
def Shows (doc : Value) (key : String) (v : Value) : Prop :=
  ∃ ms, SchemaPosition doc (.object ms) ∧ Members.get? ms key = some v

end Json

/-- Each reference in a document is the identifier of a schema in it. -/
def Json.SelfContained (doc : Value) : Prop :=
  ∀ r, Shows doc "$ref" (.string r) → Shows doc "id" (.string r)

/-! ## Members of what is rendered -/

theorem Property.get?_insertSome {key k : String} {value : Option Value} {ms : Members} :
    Members.get? (Property.insertSome key value ms) k =
      if key = k then value.or (Members.get? ms k) else Members.get? ms k := by
  cases value with
  | none => simp [Property.insertSome]
  | some v => by_cases h : key = k <;> simp [Property.insertSome, h]

/-- The keys that a property may write over the members of its kind. -/
def Property.overlayKeys : List String :=
  ["title", "description", "format", "minimum", "maximum", "minLength", "maxLength", "pattern",
    "enum", "default", "required"]

/-- **A property writes nothing over other keys than its own.** -/
theorem Property.get?_overlay (p : Property) {ms : Members} {k : String}
    (hk : k ∉ Property.overlayKeys) : Members.get? (p.overlay ms) k = Members.get? ms k := by
  simp only [Property.overlayKeys, List.mem_cons, List.not_mem_nil, or_false, not_or] at hk
  obtain ⟨h1, h2, h3, h4, h5, h6, h7, h8, h9, h10, h11⟩ := hk
  simp only [Property.overlay, Property.get?_insertSome, if_neg (Ne.symm h1), if_neg (Ne.symm h2),
    if_neg (Ne.symm h3), if_neg (Ne.symm h4), if_neg (Ne.symm h5), if_neg (Ne.symm h6),
    if_neg (Ne.symm h7), if_neg (Ne.symm h8), if_neg (Ne.symm h9), if_neg (Ne.symm h10),
    if_neg (Ne.symm h11)]

theorem Heading.get?_render (root : Bool) (h : Heading) :
    Members.get? (h.render root) "id" = h.id.map .string ∧
      Members.get? (h.render root) "items" = none ∧
      Members.get? (h.render root) "$ref" = none := by
  simp [Heading.render, Property.get?_insertSome, Members.get?_cons]

/-- The properties of a schema in its document. -/
def Schema.properties (s : Schema) : Members := Members.ofList (Field.renderAll s.fields)

theorem Schema.get?_render (root : Bool) (s : Schema) :
    Members.get? (s.render root) "properties" = some (.object s.properties) ∧
      Members.get? (s.render root) "id" = s.heading.id.map .string ∧
      Members.get? (s.render root) "items" = none ∧
      Members.get? (s.render root) "$ref" = none := by
  obtain ⟨h, fields⟩ := s
  obtain ⟨hid, hitems, href⟩ := h.get?_render root
  simp [Schema.render, Schema.properties, Schema.fields, hid, hitems, href]

theorem Property.get?_plain (p : Property) :
    Members.get? p.plain "properties" = none ∧ Members.get? p.plain "$ref" = none ∧
      ∀ v, Members.get? p.plain "items" = some v →
        ∃ k : Kind, v = .object [("type", .string k.name)] := by
  unfold Property.plain
  split
  · simp
  · cases p.items with
    | none => simp [Members.get?_cons]
    | some k =>
      simp only [Members.get?_cons]
      refine ⟨by simp, by simp, fun v hv => ⟨k, ?_⟩⟩
      simpa using hv.symm
  · simp [Members.get?_cons]

theorem Field.mem_renderAll {fs : List Field} {k : String} {v : Value} :
    (k, v) ∈ Field.renderAll fs ↔
      ∃ f ∈ fs, f.property.ignored = false ∧ k = f.property.name ∧ v = .object f.render := by
  induction fs with
  | nil => simp [Field.renderAll]
  | cons f fs ih =>
    rw [Field.renderAll]
    by_cases hi : f.property.ignored = true
    · simp [hi, ih]
    · rw [if_neg hi, List.mem_cons, ih]
      simp [hi]

theorem Field.map_fst_renderAll (fs : List Field) :
    ((Field.renderAll fs).map (·.1)).Sublist (fs.map (·.property.name)) := by
  induction fs with
  | nil => exact List.Sublist.slnil
  | cons f fs ih =>
    rw [Field.renderAll]
    split
    · exact ih.cons _
    · exact ih.cons_cons _

/-! ## What a link shows -/

theorem Link.properties_of_render {p : Property} {l : Link} {ps : Members}
    (h : Members.get? (l.render p) "properties" = some (.object ps)) :
    ∃ sub, l = .nested sub ∧ ps = sub.properties := by
  have hplain : Members.get? p.plain "properties" ≠ some (.object ps) := by
    rw [p.get?_plain.1]
    simp
  cases l with
  | none => exact absurd h hplain
  | nested sub =>
    refine ⟨sub, rfl, ?_⟩
    rw [Link.render] at h
    split at h
    · rw [(sub.get?_render false).1] at h
      cases h
      rfl
    · simp [Members.get?_cons] at h
    · exact absurd h hplain
  | deferred r =>
    rw [Link.render] at h
    split at h
    · simp [Members.get?_cons] at h
    · simp [Members.get?_cons] at h
    · exact absurd h hplain

theorem Link.items_of_render {p : Property} {l : Link} {v : Value}
    (h : Members.get? (l.render p) "items" = some v) :
    (∃ sub, l = .nested sub ∧ v = .object (sub.render false)) ∨
      (∃ r, l = .deferred r ∧ v = .object [("$ref", .string r)]) ∨
      ∃ k : Kind, v = .object [("type", .string k.name)] := by
  cases l with
  | none => exact Or.inr (Or.inr (p.get?_plain.2.2 v h))
  | nested sub =>
    rw [Link.render] at h
    split at h
    · rw [(sub.get?_render false).2.2.1] at h
      cases h
    · simp only [Members.get?_cons] at h
      exact Or.inl ⟨sub, rfl, by simpa using h.symm⟩
    · exact Or.inr (Or.inr (p.get?_plain.2.2 v h))
  | deferred r =>
    rw [Link.render] at h
    split at h
    · simp [Members.get?_cons] at h
    · simp only [Members.get?_cons] at h
      exact Or.inr (Or.inl ⟨r, rfl, by simpa using h.symm⟩)
    · exact Or.inr (Or.inr (p.get?_plain.2.2 v h))

theorem Link.reference_of_render {p : Property} {l : Link} {v : Value}
    (h : Members.get? (l.render p) "$ref" = some v) :
    ∃ r, l = .deferred r ∧ v = .string r := by
  have hplain : Members.get? p.plain "$ref" ≠ some v := by
    rw [p.get?_plain.2.1]
    simp
  cases l with
  | none => exact absurd h hplain
  | nested sub =>
    rw [Link.render] at h
    split at h
    · rw [(sub.get?_render false).2.2.2] at h
      cases h
    · simp [Members.get?_cons] at h
    · exact absurd h hplain
  | deferred r =>
    rw [Link.render] at h
    split at h
    · simp only [Members.get?_cons] at h
      exact ⟨r, rfl, by simpa using h.symm⟩
    · simp [Members.get?_cons] at h
    · exact absurd h hplain

theorem Field.get?_render (f : Field) {k : String} (hk : k ∉ Property.overlayKeys) :
    Members.get? f.render k = Members.get? (f.link.render f.property) k := by
  obtain ⟨p, l⟩ := f
  rw [Field.render, Property.get?_overlay p hk, Field.link_mk, Field.property_mk]

/-! ## What stands in schema positions -/

/-- What can stand in a schema position of the document of a schema. -/
inductive Schema.Stands (s : Schema) (label : Option TypeId) (depth : Nat) : Value → Prop
  | schema {o : Occurrence} (ho : o ∈ s.occurrences label depth) (root : Bool) :
      Stands s label depth (.object (o.schema.render root))
  | field {o : Occurrence} {f : Field} (ho : o ∈ s.occurrences label depth)
      (hf : f ∈ o.schema.fields) : Stands s label depth (.object f.render)
  | reference {o : Occurrence} {f : Field} {r : String} (ho : o ∈ s.occurrences label depth)
      (hf : f ∈ o.schema.fields) (hl : f.link = .deferred r) :
      Stands s label depth (.object [("$ref", .string r)])
  | kind (k : Kind) : Stands s label depth (.object [("type", .string k.name)])

variable {s : Schema} {label : Option TypeId} {depth : Nat} {o : Occurrence} {f : Field}
  {v : Value}

theorem Schema.Stands.of_property {k : String} (ho : o ∈ s.occurrences label depth)
    (hv : Members.get? o.schema.properties k = some v) : s.Stands label depth v := by
  obtain ⟨f, hf, -, -, rfl⟩ := Field.mem_renderAll.mp (Members.mem_of_get?_ofList hv)
  exact Stands.field ho hf

/-- **In the schema positions of a document stand the schemas of the tree, their fields, and what
stands for the items of an array.** -/
theorem Schema.stands_of_position (label : Option TypeId) (depth : Nat)
    (h : SchemaPosition s.toValue v) : s.Stands label depth v := by
  generalize hdoc : s.toValue = doc at h
  induction h with
  | root =>
    subst hdoc
    exact Stands.schema (s.self_mem_occurrences label depth) true
  | property _ hp hv ih =>
    cases ih with
    | @schema o ho root =>
      rw [(o.schema.get?_render root).1] at hp
      cases hp
      exact Stands.of_property ho hv
    | @field o f ho hf =>
      rw [f.get?_render (by decide)] at hp
      obtain ⟨sub, hl, rfl⟩ := Link.properties_of_render hp
      exact Stands.of_property (Schema.nested_mem_occurrences ho hf hl) hv
    | reference _ _ _ => simp [Members.get?_cons] at hp
    | kind k => simp [Members.get?_cons] at hp
  | items _ hv ih =>
    cases ih with
    | @schema o ho root =>
      rw [(o.schema.get?_render root).2.2.1] at hv
      cases hv
    | @field o f ho hf =>
      rw [f.get?_render (by decide)] at hv
      rcases Link.items_of_render hv with ⟨sub, hl, rfl⟩ | ⟨r, hl, rfl⟩ | ⟨k, rfl⟩
      · exact Stands.schema (Schema.nested_mem_occurrences ho hf hl) false
      · exact Stands.reference ho hf hl
      · exact Stands.kind k
    | reference _ _ _ => simp [Members.get?_cons] at hv
    | kind k => simp [Members.get?_cons] at hv

/-- **Every `$ref` of a document is that of a deferred field of the tree.** -/
theorem Schema.exists_deferred_of_shows (label : Option TypeId) (depth : Nat)
    (h : Shows s.toValue "$ref" v) :
    ∃ o ∈ s.occurrences label depth, ∃ f ∈ o.schema.fields, ∃ r,
      f.link = .deferred r ∧ v = .string r := by
  obtain ⟨ms, hpos, href⟩ := h
  cases Schema.stands_of_position label depth hpos with
  | @schema o ho root =>
    rw [(o.schema.get?_render root).2.2.2] at href
    cases href
  | @field o f ho hf =>
    rw [f.get?_render (by decide)] at href
    exact ⟨o, ho, f, hf, Link.reference_of_render href⟩
  | @reference o f r ho hf hl =>
    simp only [Members.get?_cons] at href
    exact ⟨o, ho, f, hf, r, hl, by simpa using href.symm⟩
  | kind k => simp [Members.get?_cons] at href

/-! ## Legible schemas -/

/-- A schema whose fields can all be seen in its document, and their links too. -/
structure Schema.Legible (s : Schema) : Prop where
  live : ∀ f ∈ s.fields, f.property.ignored = false
  names : (s.fields.map (·.property.name)).Nodup
  kinds : ∀ f ∈ s.fields, f.link ≠ .none →
    f.property.kind = some .object ∨ f.property.kind = some .array

theorem Schema.Legible.field?_eq (h : s.Legible) (hf : f ∈ s.fields) :
    s.field? f.property.name = some f := by
  cases hg : s.field? f.property.name with
  | none =>
    rw [Schema.field?, List.find?_eq_none] at hg
    exact absurd (by simp) (hg f hf)
  | some g =>
    have hname : g.property.name = f.property.name := by simpa using List.find?_some hg
    have hmem : g ∈ s.fields := List.mem_of_find?_eq_some hg
    rw [List.inj_on_of_nodup_map h.names hmem hf hname]

theorem Schema.Legible.get?_properties (h : s.Legible) (hf : f ∈ s.fields) :
    Members.get? s.properties f.property.name = some (.object f.render) := by
  refine Members.get?_ofList_of_mem ?_ ?_
  · exact h.names.sublist (Field.map_fst_renderAll s.fields)
  · exact Field.mem_renderAll.mpr ⟨f, hf, h.live f hf, rfl, rfl⟩

/-- A schema is displayed where an object in a schema position has its properties and its
identifier. -/
def Schema.Displayed (doc : Value) (s : Schema) : Prop :=
  ∃ ms, SchemaPosition doc (.object ms) ∧
    Members.get? ms "properties" = some (.object s.properties) ∧
    Members.get? ms "id" = s.heading.id.map .string

theorem Schema.Displayed.field {doc : Value} (h : s.Displayed doc) (hs : s.Legible)
    (hf : f ∈ s.fields) : SchemaPosition doc (.object f.render) := by
  obtain ⟨ms, hpos, hp, -⟩ := h
  exact SchemaPosition.property hpos hp (hs.get?_properties hf)

/-- **The schema inside a field of a legible schema is displayed along with it.** -/
theorem Schema.Displayed.nested {doc : Value} {sub : Schema} (h : s.Displayed doc)
    (hs : s.Legible) (hf : f ∈ s.fields) (hl : f.link = .nested sub) : sub.Displayed doc := by
  have hpos := h.field hs hf
  rcases hs.kinds f hf (by rw [hl]; simp) with hk | hk
  -- An object has the members of the schema itself, an array has them in its items.
  · refine ⟨f.render, hpos, ?_, ?_⟩
    · rw [f.get?_render (by decide), hl, Link.render, hk]
      exact (sub.get?_render false).1
    · rw [f.get?_render (by decide), hl, Link.render, hk]
      exact (sub.get?_render false).2.1
  · refine ⟨sub.render false, SchemaPosition.items hpos ?_, (sub.get?_render false).1,
      (sub.get?_render false).2.1⟩
    rw [f.get?_render (by decide), hl, Link.render, hk]
    simp [Members.get?_cons]

/-- **All schemas of a tree are displayed in its document**, if they are legible. -/
theorem Schema.displayed (h : ∀ o ∈ s.occurrences label depth, o.schema.Legible) :
    ∀ o ∈ s.occurrences label depth, o.schema.Displayed s.toValue := by
  have hall : ∀ o ∈ s.occurrences label depth,
      o ∈ s.occurrences label depth ∧ o.schema.Displayed s.toValue := by
    refine Schema.forall_occurrences ⟨s.self_mem_occurrences label depth, ?_⟩ ?_
    · exact ⟨s.render true, SchemaPosition.root, (s.get?_render true).1, (s.get?_render true).2.1⟩
    · rintro o ⟨ho, hd⟩ f hf sub hl
      exact ⟨Schema.nested_mem_occurrences ho hf hl, hd.nested (h o ho) hf hl⟩
  exact fun o ho => (hall o ho).2

theorem Schema.shows_id (h : ∀ o ∈ s.occurrences label depth, o.schema.Legible)
    (ho : o ∈ s.occurrences label depth) {i : String} (hi : o.schema.heading.id = some i) :
    Shows s.toValue "id" (.string i) := by
  obtain ⟨ms, hpos, -, hid⟩ := Schema.displayed h o ho
  exact ⟨ms, hpos, by rw [hid, hi]; rfl⟩

/-- **The references of all deferred fields are shown.** -/
theorem Schema.shows_reference (h : ∀ o ∈ s.occurrences label depth, o.schema.Legible)
    (ho : o ∈ s.occurrences label depth) (hf : f ∈ o.schema.fields) {r : String}
    (hl : f.link = .deferred r) : Shows s.toValue "$ref" (.string r) := by
  have hpos := (Schema.displayed h o ho).field (h o ho) hf
  rcases (h o ho).kinds f hf (by rw [hl]; simp) with hk | hk
  · refine ⟨f.render, hpos, ?_⟩
    rw [f.get?_render (by decide), hl, Link.render, hk]
    simp [Members.get?_cons]
  · refine ⟨[("$ref", .string r)], SchemaPosition.items hpos ?_, by simp [Members.get?_cons]⟩
    rw [f.get?_render (by decide), hl, Link.render, hk]
    simp [Members.get?_cons]

/-- **A document shows a reference if and only if there is a deferred link.** -/
theorem Schema.shows_reference_iff (h : ∀ o ∈ s.occurrences label depth, o.schema.Legible) :
    (∃ v, Shows s.toValue "$ref" v) ↔ s.hasDeferred = true := by
  rw [Schema.hasDeferred_iff label depth]
  constructor
  · rintro ⟨v, hv⟩
    obtain ⟨o, ho, f, hf, r, hl, -⟩ := Schema.exists_deferred_of_shows label depth hv
    exact ⟨o, ho, f, hf, Field.isDeferred_iff.mpr ⟨r, hl⟩⟩
  · rintro ⟨o, ho, f, hf, hd⟩
    obtain ⟨r, hl⟩ := Field.isDeferred_iff.mp hd
    exact ⟨_, Schema.shows_reference h ho hf hl⟩

end SchemaTree
