import SchemaTree.Proofs.Catalog.Fields
import SchemaTree.Proofs.Compiler.Declared
import SchemaTree.Proofs.Json.Alike

/-!
# From written annotations to emitted members

An annotation of a field is written in a catalog document, kept aside, decoded, stored, described by
handlers and written into documents.  Here the two ends are related, and this for defaults.

* `Compiler.ShowsMember`: a field has a member in all documents in which it stands.
* `Compiler.showsMember_stated`: what a declaration of an accepted catalog states is shown.
* `emitted_default`: **a default is emitted as it is written, unless it is `null`**, which is taken
  for no default.
-/

namespace SchemaTree

open Json

/-! ## What a document shows of a field -/

/-- At a pointer of a document stands an object with this under a key, or with nothing there. -/
def Json.Value.ShowsAt (doc : Value) (pointer : List String) (key : String)
    (v? : Option Value) : Prop :=
  ∃ ms, Pointer.find? doc pointer = some (.object ms) ∧ Members.get? ms key = v?

namespace Compiler

/-- **All documents show a member of a declared field**, or that the field has none: wherever the
field stands in a tree that is emitted, and among the properties of the trees for its alias. -/
structure ShowsMember (c : Compiler) (aliasName : String) (d : Descriptor) (key : String)
    (v? : Option Value) : Prop where
  places : ∀ root s, c.Emits root s → ∀ place ∈ s.places [],
    place.2.property.declared = some d → s.toValue.ShowsAt place.1 key v?
  root : ∀ s, c.Emits aliasName s → s.toValue.ShowsAt ["properties", d.name] key v?

variable {catalog : Catalog} {aliasName : String} {i : Nat} {field : Reading} {d : Descriptor}
  {key : String}

/-- **What a declaration of an accepted catalog states is shown**, if the field is not ignored. -/
theorem showsMember_stated (hc : catalog.Accepted) (hd : catalog.Stored aliasName i field d)
    (hi : d.annotations.ignore = false) (base : String) (options : CompilerOptions)
    (hk : key ∉ Descriptor.bodyKeys) :
    (ofCatalog catalog base options).ShowsMember aliasName d key
      (Members.get? d.statements key).join := by
  obtain ⟨t, ds, ht, hds, hget⟩ := hd.stands
  rw [ofCatalog_eq_standard]
  have hshown : ∀ root s, (standard catalog.source (urlFor base) options).Emits root s →
      ∀ place ∈ s.places [], place.2.property = Handlers.described d →
        s.toValue.ShowsAt place.1 key (Members.get? d.statements key).join := by
    intro root s hs place hplace hp
    refine ⟨place.2.render, ?_, Field.get?_render_described hp hk⟩
    exact hs.find?_place (keepsNames_standard _ _ _) hc.distinctNames hplace
  constructor
  case places =>
    intro root s hs place hplace hdeclared
    obtain ⟨o, ho, hf⟩ := (Schema.mem_places s [] none 0 place.2).mp ⟨place, hplace, rfl⟩
    obtain ⟨-, -, d', -, -, -, hp⟩ := hs.exists_described _ _ _ ho hf
    rw [hp, Handlers.declared_described] at hdeclared
    cases hdeclared
    exact hshown root s hs place hplace hp
  case root =>
    intro s hs
    obtain ⟨t', hdescribed⟩ := hs.described
    obtain rfl : t' = t := Option.some.inj (hdescribed.resolve.symm.trans ht)
    have hlive :
        ((standard catalog.source (urlFor base) options).describe t' d).ignored = false := by
      rw [describe_standard, Handlers.ignored_described, hi]
    obtain ⟨f, hf, hp⟩ := hdescribed.declared ds hds d (List.mem_of_getElem? hget) hlive
    rw [describe_standard] at hp
    have hplace : (f.pointer [], f) ∈ s.places [] :=
      Schema.mem_places_iff.mpr ⟨f, hf, Or.inl rfl⟩
    have hpointer : f.pointer [] = ["properties", d.name] := by
      rw [Field.pointer, hp, Handlers.name_described, List.nil_append]
    rw [← hpointer]
    exact hshown aliasName s hs _ hplace hp

/-! ## A field with one annotation -/

/-- A catalog document with one field that has one annotation. -/
def annotated (key : String) (v : Value) : Document :=
  .value (.object [("types", .object [("a", .object [("fields", .array [
    .object [("name", .string "n"), ("type", .string "integer"), (key, v)]])])])])

/-- The field of that document, as it is written. -/
def annotatedField (key : String) (v : Value) : Reading :=
  Reading.ofValue (.object [("name", .string "n"), ("type", .string "integer"), (key, v)])

theorem mem_annotatedField (key : String) (v : Value) :
    (key, Reading.ofValue v) ∈ (annotatedField key v).members :=
  List.mem_cons_of_mem _ (List.mem_cons_of_mem _ List.mem_cons_self)

theorem showsAt_of_showsMember {s : Schema} {t : TypeId} {v? : Option Value}
    (h : ∃ d, catalog.Stored aliasName 0 field d ∧ (d.annotations.ignore = false →
      (ofCatalog catalog defaultBase {}).ShowsMember aliasName d key v?))
    (ht : catalog.source.resolve aliasName = some t) (hds : catalog.source.fields t = .ok [d])
    (hi : d.annotations.ignore = false)
    (hs : ((ofCatalog catalog defaultBase {}).compile aliasName).1 = .ok s) :
    s.toValue.ShowsAt ["properties", d.name] key v? := by
  obtain ⟨d', ⟨⟨t', ds, ht', hds', hget⟩, -⟩, hshows⟩ := h
  obtain rfl : t = t' := Option.some.inj (ht.symm.trans ht')
  obtain rfl : [d] = ds := Except.ok.inj (hds.symm.trans hds')
  obtain rfl : d = d' := Option.some.inj hget
  exact (hshows hi).root s (Emits.compiled hs)

end Compiler

/-! ## Defaults -/

/-- What is taken for a value that may be absent: `null` is absence. -/
def Json.Value.unlessNull : Value → Option Value
  | .null => none
  | v => some v

section

variable {p field : Reading} {v : Value} {f : FieldDefinition}

theorem Json.Reading.asValue_unplaced (h : p.asValue = .ok v) : p.unplaced.asValue = .ok v := by
  obtain ⟨a, _, hx, hy, rfl⟩ | ⟨r, r', hx, -⟩ := p.asValue_alike.ok_or_error
  · rw [hx] at h
    rw [hy, h]
  · rw [hx] at h
    cases h

theorem Json.Reading.asOption_asValue (h : p.asValue = .ok v) :
    p.asOption Reading.asValue = .ok v.unlessNull := by
  have hsome : v ≠ .null → (p.asValue.map some) = .ok v.unlessNull := by
    intro hv
    rw [h]
    cases v with
    | null => exact absurd rfl hv
    | _ => rfl
  cases p with
  | scalar s start stop =>
    cases h
    cases s <;> rfl
  | array start items =>
    obtain ⟨vs, -, rfl⟩ := map_ok_iff.mp h
    exact hsome (fun hv => nomatch hv)
  | object start entries =>
    obtain ⟨ms, -, rfl⟩ := map_ok_iff.mp h
    exact hsome (fun hv => nomatch hv)
  | broken lead start fault => cases h

theorem FieldDefinition.fallback_of_mem (hp : ("default", p) ∈ field.members)
    (hv : p.asValue = .ok v) (h : decode field = .ok f) :
    f.annotations.fallback = v.unlessNull := by
  refine annotations_of_mem (P := fun a => a.fallback = v.unlessNull) (by decide) ?hset ?hkeep hp h
  case hset =>
    intro a a' ha
    obtain ⟨x, hx, rfl⟩ := map_ok_iff.mp ha
    rw [Reading.asOption_asValue (Reading.asValue_unplaced hv)] at hx
    exact (Except.ok.inj hx).symm
  case hkeep =>
    intro a name q a' hname ha hfallback
    rw [(Annotations.set_keeps ha).2.2 hname, hfallback]

namespace Compiler

variable {doc : Document} {catalog : Catalog} {aliasName : String} {i : Nat}

/-- **A default is emitted as it is written, unless it is `null`.**  A field with a default that a
catalog document writes is stored where it is written; and unless it is ignored, all documents show
the default, or none if it is `null`. -/
theorem emitted_default (hc : doc.catalog = .ok catalog)
    (hfield : doc.field? aliasName i = some field) (hp : ("default", p) ∈ field.members)
    (hv : p.asValue = .ok v) (base : String) (options : CompilerOptions) :
    ∃ d, catalog.Stored aliasName i field d ∧ (d.annotations.ignore = false →
      (ofCatalog catalog base options).ShowsMember aliasName d "default" v.unlessNull) := by
  obtain ⟨d, f, hd, hf, hannotations⟩ := Document.exists_stored hc hfield
  refine ⟨d, hd, fun hi => ?_⟩
  have hstated : (Members.get? d.statements "default").join = v.unlessNull := by
    rw [← FieldDefinition.fallback_of_mem hp hv hf, ← hannotations]
    rfl
  rw [← hstated]
  exact showsMember_stated (Document.accepted hc) hd hi base options (by decide)

/-- A default with `null` inside is emitted. -/
theorem emitted_default_nested : ∃ catalog s field p,
    (annotated "default" (.array [.null])).catalog = .ok catalog ∧
    (annotated "default" (.array [.null])).field? "a" 0 = some field ∧
    ("default", p) ∈ field.members ∧ p.asValue = .ok (.array [.null]) ∧
    ((ofCatalog catalog defaultBase {}).compile "a").1 = .ok s ∧
    s.toValue.ShowsAt ["properties", "n"] "default" (some (.array [.null])) := by
  have hmem := mem_annotatedField "default" (.array [.null])
  have hfield : (annotated "default" (.array [.null])).field? "a" 0 =
      some (annotatedField "default" (.array [.null])) := rfl
  refine ⟨_, _, _, _, rfl, hfield, hmem, rfl, rfl, ?_⟩
  exact showsAt_of_showsMember (emitted_default rfl hfield hmem rfl defaultBase {}) rfl rfl rfl rfl

/-- **Not every default is emitted**: the field of a document that writes `null` shows none. -/
theorem not_emitted_default : ¬ ∀ (doc : Document) (catalog : Catalog) (aliasName : String)
    (i : Nat) (field p : Reading) (v : Value) (base : String) (options : CompilerOptions),
    doc.catalog = .ok catalog → doc.field? aliasName i = some field →
    ("default", p) ∈ field.members → p.asValue = .ok v →
    ∃ d, catalog.Stored aliasName i field d ∧ (d.annotations.ignore = false →
      (ofCatalog catalog base options).ShowsMember aliasName d "default" (some v)) := by
  intro hall
  have hfield : (annotated "default" .null).field? "a" 0 =
      some (annotatedField "default" .null) := rfl
  have hstored := hall _ _ _ _ _ _ _ defaultBase {} rfl hfield (mem_annotatedField "default" .null)
    rfl
  -- What stands there is a kind, and nothing else.
  obtain ⟨ms, hfind, hget⟩ := showsAt_of_showsMember hstored rfl rfl rfl rfl
  cases hfind
  cases hget

end Compiler

end

end SchemaTree
