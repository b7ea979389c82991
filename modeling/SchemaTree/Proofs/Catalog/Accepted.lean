import Mathlib.Data.List.Nodup
import SchemaTree.Catalog.Load
import SchemaTree.TypeSource

/-!
# Accepted catalogs

A catalog is *accepted* if it was built from definitions without an offence.  However it was
loaded, this is the last thing that happens to it (`Accepted.of_ofText` and the two lemmas after
it).

* `Accepted.distinct`: **no two types have the same identity, and no two fields of a type
  the same name.**
* `Accepted.distinctNames`, `Accepted.aliasOf_resolve`: what this means for the catalog as a
  source of types.
-/

namespace SchemaTree

/-- No two fields that a type declares have the same name. -/
def TypeSource.DistinctNames (s : TypeSource) : Prop :=
  ∀ t fields, s.fields t = .ok fields → (fields.map (·.name)).Nodup

theorem find?_of_nodup {α κ : Type} [DecidableEq κ] {key : α → κ} {l : List α}
    (hl : (l.map key).Nodup) {a : α} (ha : a ∈ l) : l.find? (key · = key a) = some a := by
  cases hf : l.find? (key · = key a) with
  | none =>
    rw [List.find?_eq_none] at hf
    exact absurd (by simp) (hf a ha)
  | some b =>
    have hkey : key b = key a := by simpa using List.find?_some hf
    rw [List.inj_on_of_nodup_map hl (List.mem_of_find?_eq_some hf) ha hkey]

/-! ## What building keeps apart -/

theorem Aliases.add_ok {known aliases : Aliases} {defs : Definitions}
    (h : Aliases.add known defs = .ok aliases) (hk : (known.map (·.2)).Nodup) :
    (aliases.map (·.2)).Nodup ∧
      aliases.map (·.2) = known.map (·.2) ++ defs.map (fun e => e.2.identity e.1) := by
  induction defs generalizing known with
  | nil =>
    cases h
    exact ⟨hk, by simp⟩
  | cons e rest ih =>
    obtain ⟨aliasName, d⟩ := e
    rw [Aliases.add] at h
    split at h
    · cases h
    · split at h
      · cases h
      · rename_i hnew
        have hk' : ((known ++ [(aliasName, d.identity aliasName)]).map (·.2)).Nodup := by
          rw [List.map_append, List.map_singleton, List.nodup_append]
          refine ⟨hk, List.nodup_singleton _, ?_⟩
          intro t ht u hu htu
          obtain rfl := List.mem_singleton.mp hu
          obtain ⟨e, he, rfl⟩ := List.mem_map.mp ht
          exact hnew (List.any_eq_true.mpr ⟨e, he, by simpa using htu⟩)
        obtain ⟨hnodup, heq⟩ := ih h hk'
        exact ⟨hnodup, by rw [heq]; simp⟩

theorem buildFields_cons {aliases : Aliases} {owner : String} {seen : List String}
    {f : FieldDefinition} {rest : List FieldDefinition} {fields : List Descriptor}
    (h : buildFields aliases owner seen (f :: rest) = .ok fields) :
    f.name ∉ seen ∧ ∃ shape fields', Shape.ofWords aliases owner f.name f.type f.items = .ok shape ∧
      buildFields aliases owner (f.name :: seen) rest = .ok fields' ∧
      fields = ⟨f.name, shape, f.annotations⟩ :: fields' := by
  rw [buildFields] at h
  split at h
  · cases h
  · rename_i hnew
    split at h
    · cases h
    · rename_i shape hshape
      cases hrest : buildFields aliases owner (f.name :: seen) rest with
      | error e =>
        rw [hrest] at h
        cases h
      | ok fields' =>
        rw [hrest] at h
        cases h
        exact ⟨by simpa using hnew, shape, fields', hshape, rfl, rfl⟩

theorem buildFields_ok {aliases : Aliases} {owner : String} {seen : List String}
    {defs : List FieldDefinition} {fields : List Descriptor}
    (h : buildFields aliases owner seen defs = .ok fields) :
    (fields.map (·.name)).Nodup ∧ ∀ d ∈ fields, d.name ∉ seen := by
  induction defs generalizing seen fields with
  | nil =>
    cases h
    exact ⟨List.nodup_nil, fun d hd => absurd hd List.not_mem_nil⟩
  | cons f rest ih =>
    obtain ⟨hnew, shape, fields', -, hrest, rfl⟩ := buildFields_cons h
    obtain ⟨hnodup, hseen⟩ := ih hrest
    refine ⟨?_, List.forall_mem_cons.mpr ⟨hnew, fun d hd hmem => ?_⟩⟩
    · rw [List.map_cons, List.nodup_cons]
      refine ⟨fun hmem => ?_, hnodup⟩
      obtain ⟨d, hd, hname⟩ := List.mem_map.mp hmem
      exact hseen d hd (hname ▸ List.mem_cons_self)
    · exact hseen d hd (List.mem_cons_of_mem _ hmem)

theorem buildTypes_cons {aliases : Aliases} {aliasName : String} {d : TypeDefinition}
    {rest : Definitions} {types : List CatalogType}
    (h : buildTypes aliases ((aliasName, d) :: rest) = .ok types) :
    ∃ fields types', buildFields aliases aliasName [] d.fields = .ok fields ∧
      buildTypes aliases rest = .ok types' ∧
      types = ⟨aliasName, d.identity aliasName, d.description, fields⟩ :: types' := by
  rw [buildTypes] at h
  split at h
  · cases h
  · rename_i fields hfields
    cases hrest : buildTypes aliases rest with
    | error e =>
      rw [hrest] at h
      cases h
    | ok types' =>
      rw [hrest] at h
      cases h
      exact ⟨fields, types', hfields, rfl, rfl⟩

theorem buildTypes_ok {aliases : Aliases} {defs : Definitions} {types : List CatalogType}
    (h : buildTypes aliases defs = .ok types) :
    types.map (·.identity) = defs.map (fun e => e.2.identity e.1) ∧
      ∀ e ∈ types, (e.fields.map (·.name)).Nodup := by
  induction defs generalizing types with
  | nil =>
    cases h
    exact ⟨rfl, fun e he => absurd he List.not_mem_nil⟩
  | cons e rest ih =>
    obtain ⟨fields, types', hfields, hrest, rfl⟩ := buildTypes_cons h
    obtain ⟨hids, hnames⟩ := ih hrest
    refine ⟨by simp [hids], ?_⟩
    exact List.forall_mem_cons.mpr ⟨(buildFields_ok hfields).1, hnames⟩

/-! ## Accepted catalogs -/

namespace Catalog

/-- A catalog that was built without an offence. -/
def Accepted (c : Catalog) : Prop := ∃ defs, build defs = .ok c

variable {c : Catalog}

theorem Accepted.of_ofDecoded {defs : Json.Decoded Definitions} (h : ofDecoded defs = .ok c) :
    c.Accepted := by
  cases defs with
  | ok defs => exact ⟨defs, h⟩
  | error r => cases h

theorem Accepted.of_ofText {text : String} (h : ofText text = .ok c) : c.Accepted :=
  Accepted.of_ofDecoded h

theorem Accepted.of_ofValue {v : Json.Value} (h : ofValue v = .ok c) : c.Accepted :=
  Accepted.of_ofDecoded h

theorem Accepted.of_ofFiles {files : List SourceFile} (h : (ofFiles files).1 = .ok c) :
    c.Accepted := by
  cases hl : (Definitions.load [] files).run.run [] with
  | mk result log =>
    simp only [ofFiles, hl] at h
    cases result with
    | ok defs => exact ⟨defs, h⟩
    | error e => cases h

theorem build_ok {defs : Definitions} (h : build defs = .ok c) :
    ∃ aliases, Aliases.add [] defs = .ok aliases ∧ buildTypes aliases defs = .ok c.types := by
  rw [build] at h
  split at h
  · cases h
  · rename_i aliases haliases
    cases ht : buildTypes aliases defs with
    | error e =>
      rw [ht] at h
      cases h
    | ok types =>
      rw [ht] at h
      cases h
      exact ⟨aliases, haliases, ht⟩

theorem Accepted.built (h : c.Accepted) :
    ∃ defs aliases, buildTypes aliases defs = .ok c.types ∧ (aliases.map (·.2)).Nodup ∧
      aliases.map (·.2) = c.types.map (·.identity) := by
  obtain ⟨defs, h⟩ := h
  obtain ⟨aliases, haliases, ht⟩ := build_ok h
  obtain ⟨hnodup, heq⟩ := Aliases.add_ok haliases List.nodup_nil
  refine ⟨defs, aliases, ht, hnodup, ?_⟩
  rw [heq, (buildTypes_ok ht).1, List.map_nil, List.nil_append]

/-- **What is known of an accepted catalog**: no two types have the same identity, and no two fields
of a type the same name. -/
theorem Accepted.distinct (h : c.Accepted) :
    (c.types.map (·.identity)).Nodup ∧ ∀ e ∈ c.types, (e.fields.map (·.name)).Nodup := by
  obtain ⟨defs, aliases, ht, hnodup, heq⟩ := h.built
  rw [heq] at hnodup
  exact ⟨hnodup, (buildTypes_ok ht).2⟩

theorem Accepted.byIdentity? (h : c.Accepted) {e : CatalogType} (he : e ∈ c.types) :
    c.byIdentity? e.identity = some e :=
  find?_of_nodup h.distinct.1 he

theorem Accepted.fields_identity (h : c.Accepted) {e : CatalogType} (he : e ∈ c.types) :
    c.source.fields e.identity = .ok e.fields := by
  simp only [source, h.byIdentity? he]

/-- **The type that an alias names has this alias.** -/
theorem Accepted.aliasOf_resolve (h : c.Accepted) {aliasName : String} {t : TypeId}
    (ht : c.source.resolve aliasName = some t) : c.source.aliasOf t = some aliasName := by
  obtain ⟨e, he, rfl⟩ := Option.map_eq_some_iff.mp ht
  have hname : e.aliasName = aliasName := by simpa using List.find?_some he
  have hid := h.byIdentity? (List.mem_of_find?_eq_some he)
  simp [source, hid, hname]

theorem Accepted.aliasFor_resolve (h : c.Accepted) {aliasName : String} {t : TypeId}
    (ht : c.source.resolve aliasName = some t) : c.source.aliasFor t = aliasName := by
  rw [TypeSource.aliasFor, h.aliasOf_resolve ht, Option.getD_some]

theorem exists_of_fields {t : TypeId} {ds : List Descriptor}
    (h : c.source.fields t = .ok ds) :
    ∃ e ∈ c.types, e.identity = t ∧ e.fields = ds := by
  simp only [source] at h
  split at h
  · rename_i e he
    cases h
    exact ⟨e, List.mem_of_find?_eq_some he, by simpa using List.find?_some he, rfl⟩
  · cases h

/-- **No two fields that a type declares have the same name.** -/
theorem Accepted.distinctNames (h : c.Accepted) : c.source.DistinctNames := by
  intro t fields ht
  obtain ⟨e, he, -, rfl⟩ := exists_of_fields ht
  exact h.distinct.2 e he

/-! ## An accepted catalog -/

/-- Three types: `order` refers to `customer` and to lists of `item`, `item` to `customer`, and
`customer` back to `order`. -/
def sample : Catalog where
  types := [
    ⟨"order", ⟨"order"⟩, none,
      [⟨"buyer", .entity ⟨"customer"⟩, {}⟩, ⟨"items", .collection (.entity ⟨"Item"⟩), {}⟩]⟩,
    ⟨"customer", ⟨"customer"⟩, none,
      [⟨"name", .kind .string, {}⟩, ⟨"last", .entity ⟨"order"⟩, {}⟩]⟩,
    ⟨"item", ⟨"Item"⟩, none, [⟨"owner", .entity ⟨"customer"⟩, {}⟩]⟩]

theorem accepted_sample : sample.Accepted := by
  refine ⟨[
    ("order", { fields := [{ name := "buyer", type := "customer" },
      { name := "items", type := "array", items := some "item" }] }),
    ("customer", { fields := [{ name := "name", type := "string" },
      { name := "last", type := "order" }] }),
    ("item", { name := some "Item", fields := [{ name := "owner", type := "customer" }] })], ?_⟩
  rfl

end Catalog

end SchemaTree
