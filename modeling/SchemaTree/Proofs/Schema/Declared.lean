import SchemaTree.Proofs.Handlers.Standard
import SchemaTree.Proofs.Schema.Document

/-!
# What a declaration says in a document

A field of a document has the members of its kind, and over these stands what its declaration
says.  Handlers, link and renderer all write into the same object; here it is said in one piece what
is in it.

* `Descriptor.body`: the members of the kind of a declared field, as it is linked.
* `Descriptor.stated`: the members that a declaration states itself, each of them only if it
  is declared.
* `Field.render_described`: **a declared field is its body with all that is stated written over it,
  and nothing else.**
* `Field.get?_render_described`: what this makes of a single member.
-/

namespace SchemaTree

open Json

/-! ## What is declared -/

namespace Descriptor

/-- The kind of a declared field: that of an annotation, or else that of the shape. -/
def finalKind (d : Descriptor) : Kind := d.annotations.kind.getD (Handlers.shapeKind d.shape)

/-- The format of a declared field: the declared one, or else the one that the name of a string
tells. -/
def format? (d : Descriptor) : Option String :=
  d.annotations.format <|> if d.finalKind = .string then Format.guess d.name else none

/-- What a declaration can state about the values of a field, by the key that it has in documents.
An empty list of choices is no statement, and neither is that a field is not required. -/
def statements (d : Descriptor) : List (String × Option Value) := [
  ("title", d.annotations.title.map .string),
  ("description", d.annotations.description.map .string),
  ("format", d.format?.map .string),
  ("minimum", d.annotations.minimum.map .ofBound),
  ("maximum", d.annotations.maximum.map .ofBound),
  ("minLength", d.annotations.minLength.map .ofNat),
  ("maxLength", d.annotations.maxLength.map .ofNat),
  ("pattern", d.annotations.pattern.map .string),
  ("enum", (d.annotations.choices.filter (!·.isEmpty)).map .array),
  ("default", d.annotations.fallback),
  ("required", if d.annotations.required then some (.bool true) else none)]

/-- The members that a declaration states. -/
def stated (d : Descriptor) : Members :=
  d.statements.filterMap fun (key, value?) => value?.map (key, ·)

end Descriptor

/-- The rendering of a schema inside a field: that of its own, without a meta-schema. -/
def Schema.inner (s : Schema) : Members := (s.render true).filter (·.1 ≠ "$schema")

namespace Descriptor

/-- The items of a declared array, as it is linked: a schema, a reference to one, or a kind, if it
is known. -/
def items? (d : Descriptor) : Link → Option Value
  | .nested s => some (.object s.inner)
  | .deferred reference => some (.object [("$ref", .string reference)])
  | .none => (Handlers.shapeItems d.shape).map fun k => .object [("type", .string k.name)]

/-- **The members of the kind of a declared field**, as it is linked: an object is the schema inside
it or a reference to it, an array names its items, and all else is just a kind. -/
def body (d : Descriptor) (l : Link) : Members :=
  match d.finalKind, l with
  | .object, .nested s => s.inner
  | .object, .deferred reference => [("$ref", .string reference)]
  | .array, l => ("type", .string "array") :: ((d.items? l).map ("items", ·)).toList
  | k, _ => [("type", .string k.name)]

end Descriptor

/-! ## What is written over the body -/

theorem Property.foldl_insertSome (table : List (String × Option Value)) (ms : Members) :
    table.foldl (fun ms (key, value?) => Property.insertSome key value? ms) ms =
      (table.filterMap fun (key, value?) => value?.map (key, ·)).foldl
        (fun ms (key, v) => Members.insert key v ms) ms := by
  induction table generalizing ms with
  | nil => rfl
  | cons e table ih =>
    obtain ⟨key, value?⟩ := e
    cases value? with
    | none => exact ih ms
    | some v => exact ih (Members.insert key v ms)

theorem map_fst_filterMap_sublist {α : Type} (table : List (String × Option α)) :
    ((table.filterMap fun (key, value?) => value?.map (key, ·)).map (·.1)).Sublist
      (table.map (·.1)) := by
  induction table with
  | nil => exact List.Sublist.slnil
  | cons e table ih =>
    obtain ⟨key, value?⟩ := e
    cases value? with
    | none => exact ih.cons key
    | some v => exact ih.cons_cons key

theorem get?_filterMap {α : Type} {table : List (String × Option α)} {k : String}
    (hn : (table.map (·.1)).Nodup) :
    Members.get? (table.filterMap fun (key, value?) => value?.map (key, ·)) k =
      (Members.get? table k).join := by
  induction table with
  | nil => rfl
  | cons e table ih =>
    obtain ⟨key, value?⟩ := e
    obtain ⟨hnew, hrest⟩ := List.nodup_cons.mp hn
    have hhead : Members.get?
        (((key, value?) :: table).filterMap fun (key, value?) => value?.map (key, ·)) k =
          (if key = k then value? else none).or (Members.get? table k).join := by
      rw [← ih hrest]
      cases value? with
      | none => split <;> rfl
      | some v =>
        refine Members.get?_cons.trans ?_
        split <;> rfl
    rw [hhead, Members.get?_cons]
    by_cases hk : key = k
    · subst hk
      rw [if_pos rfl, if_pos rfl, Members.get?_of_not_mem hnew]
      exact Option.or_none
    · rw [if_neg hk, if_neg hk, Option.none_or]

namespace Descriptor

variable (d : Descriptor)

theorem nodup_stated : (d.stated.map (·.1)).Nodup := by
  have htable : (d.statements.map (·.1)).Nodup := by
    simp [statements]
  exact htable.sublist (map_fst_filterMap_sublist d.statements)

theorem overlay_described {ms : Members} (hms : (ms.map (·.1)).Nodup) :
    (Handlers.described d).overlay ms = Members.overlaid d.stated ms := by
  have hchoices : (if (d.annotations.choices.getD []).isEmpty then none
      else some (Value.array (d.annotations.choices.getD []))) =
      (d.annotations.choices.filter (!·.isEmpty)).map .array := by
    cases d.annotations.choices with
    | none => rfl
    | some vs => cases vs <;> rfl
  have htable : (Handlers.described d).overlay ms =
      d.statements.foldl (fun ms (key, value?) => Property.insertSome key value? ms) ms := by
    rw [Handlers.described_eq]
    simp only [Property.overlay, hchoices]
    rfl
  rw [htable, Property.foldl_insertSome]
  exact Members.foldl_insert_eq_overlaid hms d.nodup_stated

end Descriptor

/-! ## The body -/

theorem Property.nodup_insertSome {key : String} {value? : Option Value} {ms : Members}
    (h : (ms.map (·.1)).Nodup) : ((Property.insertSome key value? ms).map (·.1)).Nodup := by
  cases value? with
  | none => exact h
  | some v => exact Members.nodup_insert h

theorem Schema.nodup_render (root : Bool) (s : Schema) : ((s.render root).map (·.1)).Nodup := by
  obtain ⟨h, fields⟩ := s
  rw [Schema.render, Heading.render]
  refine Members.nodup_insert (Property.nodup_insertSome (Members.nodup_insert ?_))
  refine Property.nodup_insertSome (Property.nodup_insertSome ?_)
  exact List.nodup_singleton "title"

/-- **Inside a field a schema is rendered as on its own, but without a meta-schema.** -/
theorem Schema.render_false (s : Schema) : s.render false = s.inner := by
  obtain ⟨⟨title, id, metaSchema, kind, description⟩, fields⟩ := s
  cases id <;> cases metaSchema <;> cases description <;>
    simp [Schema.inner, Schema.render, Heading.render, Property.insertSome, Members.insert]

theorem Schema.nodup_inner (s : Schema) : (s.inner.map (·.1)).Nodup :=
  (s.nodup_render true).sublist (List.filter_sublist.map _)

namespace Descriptor

variable (d : Descriptor) (l : Link)

theorem nodup_body : ((d.body l).map (·.1)).Nodup := by
  have harray : ∀ items? : Option Value, ((("type", Value.string "array") ::
      (items?.map ("items", ·)).toList).map (·.1)).Nodup := by
    intro items?
    cases items? <;> simp
  unfold body
  split
  · exact Schema.nodup_inner _
  · simp
  · exact harray _
  · simp

theorem plain_described : (Handlers.described d).plain = d.body .none := by
  have hkind : (Handlers.described d).kind = some d.finalKind := Handlers.kind_described d
  have hitems : (Handlers.described d).items = Handlers.shapeItems d.shape := by
    rw [Handlers.described_eq]
  unfold Property.plain body
  rw [hkind, hitems]
  cases d.finalKind with
  | array => cases hs : Handlers.shapeItems d.shape <;> simp [items?, hs]
  | _ => rfl

theorem render_eq_body : l.render (Handlers.described d) = d.body l := by
  have hkind : (Handlers.described d).kind = some d.finalKind := Handlers.kind_described d
  cases l with
  | none => rw [Link.render, plain_described]
  | nested s =>
    rw [Link.render, hkind, Schema.render_false, plain_described]
    unfold body
    cases d.finalKind <;> rfl
  | deferred r =>
    rw [Link.render, hkind, plain_described]
    unfold body
    cases d.finalKind <;> rfl

end Descriptor

/-- **A declared field is its body with all that is stated written over it.** -/
theorem Field.render_described {f : Field} {d : Descriptor}
    (h : f.property = Handlers.described d) :
    f.render = Members.overlaid d.stated (d.body f.link) := by
  obtain ⟨p, l⟩ := f
  obtain rfl : p = Handlers.described d := h
  rw [Field.render, d.render_eq_body, d.overlay_described (d.nodup_body l), Field.link_mk]

/-! ## Single members -/

/-- The keys that the members of a kind can have. -/
def Descriptor.bodyKeys : List String :=
  ["title", "id", "type", "description", "properties", "items", "$ref"]

theorem Descriptor.get?_stated (d : Descriptor) (k : String) :
    Members.get? d.stated k = (Members.get? d.statements k).join :=
  get?_filterMap (by simp [statements])

section

variable {k : String}

theorem Schema.get?_inner (s : Schema) (hk : k ∉ Descriptor.bodyKeys) :
    Members.get? s.inner k = none := by
  obtain ⟨⟨title, id, metaSchema, kind, description⟩, fields⟩ := s
  simp only [Descriptor.bodyKeys, List.mem_cons, List.not_mem_nil, or_false, not_or] at hk
  obtain ⟨h1, h2, h3, h4, h5, -⟩ := hk
  simp [← Schema.render_false, Schema.render, Heading.render, Property.get?_insertSome,
    Members.get?_cons, Ne.symm h1, Ne.symm h2, Ne.symm h3, Ne.symm h4, Ne.symm h5]

theorem Descriptor.get?_body (d : Descriptor) (l : Link) (hk : k ∉ bodyKeys) :
    Members.get? (d.body l) k = none := by
  have hkeys := hk
  simp only [bodyKeys, List.mem_cons, List.not_mem_nil, or_false, not_or] at hkeys
  obtain ⟨-, -, h3, -, -, h6, h7⟩ := hkeys
  unfold body
  split
  · exact Schema.get?_inner _ hk
  · rw [Members.get?_cons, if_neg (Ne.symm h7), Members.get?_nil]
  · rw [Members.get?_cons, if_neg (Ne.symm h3)]
    have hitems : ∀ items? : Option Value,
        Members.get? (items?.map ("items", ·)).toList k = none := by
      intro items?
      cases items? with
      | none => rfl
      | some v =>
        rw [Option.map_some, Option.toList_some, Members.get?_cons, if_neg (Ne.symm h6),
          Members.get?_nil]
    exact hitems _
  · rw [Members.get?_cons, if_neg (Ne.symm h3), Members.get?_nil]

/-- **Under a key that no body has, a declared field shows what is stated there**, or nothing. -/
theorem Field.get?_render_described {f : Field} {d : Descriptor}
    (h : f.property = Handlers.described d) (hk : k ∉ Descriptor.bodyKeys) :
    Members.get? f.render k = (Members.get? d.statements k).join := by
  rw [Field.render_described h, Members.get?_overlaid (d.nodup_body f.link) d.nodup_stated,
    d.get?_body f.link hk, Option.or_none, d.get?_stated]

end

end SchemaTree
