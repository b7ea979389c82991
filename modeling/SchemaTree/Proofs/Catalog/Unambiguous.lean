import SchemaTree.Proofs.Catalog.Exact
import SchemaTree.Proofs.Catalog.Loaded
import SchemaTree.Proofs.Handlers.Standard

/-!
# Accepted catalogs are unambiguous

A catalog holds each type under two keys, its alias and its identity, and what a field refers to is
read off its shape in two ways: by `Shape.target?`, which looks through all collections, and by the
standard handlers, which look through one.  In a catalog that was built neither can go wrong.

* `Accepted.resolve_iff_aliasOf`: aliases and identities determine each other.
* `Shape.Simple`: the shapes that words denote (`Definitions.Denotes.simple`).  On them **both ways
  to read a shape agree** (`Shape.Simple.shapeObject_eq`).
* `ClosedGraph`: what this makes of a catalog, and `built_closedGraph`: **every catalog that was
  built is one.**
-/

namespace SchemaTree

/-! ## Simple shapes -/

/-- A shape and the shapes inside it, from the outside in. -/
def Shape.parts : Shape → List Shape
  | kind k => [kind k]
  | entity target => [entity target]
  | collection inner => collection inner :: inner.parts

/-- A shape that names no array as a kind and has no collection right inside another. -/
structure Shape.Simple (sh : Shape) : Prop where
  noArray : Shape.kind .array ∉ sh.parts
  noNested : ∀ inner, Shape.collection (.collection inner) ∉ sh.parts

/-- **Words denote simple shapes only.** -/
theorem Definitions.Denotes.simple {defs : Definitions} {type : String} {items : Option String}
    {sh : Shape} (h : defs.Denotes type items sh) : sh.Simple := by
  cases h with
  | kind k hk => exact ⟨by simpa [Shape.parts] using hk.symm, by simp [Shape.parts]⟩
  | entity => exact ⟨by simp [Shape.parts], by simp [Shape.parts]⟩
  | collection => exact ⟨by simp [Shape.parts], by simp [Shape.parts]⟩
  | kinds k hk => exact ⟨by simpa [Shape.parts] using hk.symm, by simp [Shape.parts]⟩
  | entities => exact ⟨by simp [Shape.parts], by simp [Shape.parts]⟩
  | object => exact ⟨by simp [Shape.parts], by simp [Shape.parts]⟩

/-- **The type that the handlers see in a simple shape is the one that it refers to.** -/
theorem Shape.Simple.shapeObject_eq {sh : Shape} (h : sh.Simple) :
    Handlers.shapeObject sh = sh.target? := by
  cases sh with
  | kind k => rfl
  | entity target => rfl
  | collection inner =>
    cases inner with
    | kind k => rfl
    | entity target => rfl
    | collection deeper => exact absurd List.mem_cons_self (h.noNested deeper)

theorem Shape.Simple.refersTo {sh : Shape} {u : TypeId} (h : sh.Simple) (hu : sh.target? = some u) :
    sh.RefersTo u := by
  rw [← h.shapeObject_eq] at hu
  exact Handlers.shapeObject_eq_some.mp hu

/-- **The target of a field with a simple shape** is that of its shape, unless an annotation makes
the field primitive. -/
theorem Handlers.target?_described_of_simple {d : Descriptor} (hd : d.shape.Simple)
    (hi : d.annotations.ignore = false) :
    (described d).target? =
      if (d.annotations.kind.map Kind.isPrimitive).getD false then none else d.shape.target? := by
  rw [Property.target?, ignored_described, hi, kind_described, object_described,
    hd.shapeObject_eq, if_neg Bool.false_ne_true]
  cases hk : d.annotations.kind with
  | some k => cases k <;> rfl
  | none =>
    cases d.shape with
    | kind k => cases k <;> rfl
    | entity target => rfl
    | collection inner => rfl

namespace Catalog

variable {c : Catalog} {defs : Definitions} {t u : TypeId} {aliasName : String}

/-! ## Aliases and identities -/

theorem exists_fields_iff : (∃ ds, c.source.fields t = .ok ds) ↔ c.Has t := by
  constructor
  · rintro ⟨ds, hds⟩
    obtain ⟨e, he, rfl, -⟩ := exists_of_fields hds
    exact List.mem_map_of_mem he
  · exact fun h => h.fields

theorem exists_resolve_iff :
    (∃ t, c.source.resolve aliasName = some t) ↔ aliasName ∈ c.aliases := by
  constructor
  · rintro ⟨t, ht⟩
    obtain ⟨e, he, -⟩ := Option.map_eq_some_iff.mp ht
    have hname : e.aliasName = aliasName := by simpa using List.find?_some he
    exact hname ▸ List.mem_map_of_mem (List.mem_of_find?_eq_some he)
  · exact resolve_of_mem

theorem exists_aliasOf_iff : (∃ a, c.source.aliasOf t = some a) ↔ c.Has t := by
  constructor
  · rintro ⟨a, ha⟩
    obtain ⟨e, he, -⟩ := Option.map_eq_some_iff.mp ha
    have hid : e.identity = t := by simpa using List.find?_some he
    exact hid ▸ List.mem_map_of_mem (List.mem_of_find?_eq_some he)
  · exact fun h => ⟨_, h.aliasOf⟩

/-- **In a catalog with distinct aliases an alias and an identity determine each other.** -/
theorem Accepted.resolve_iff_aliasOf (h : c.Accepted) (hn : c.aliases.Nodup) :
    c.source.resolve aliasName = some t ↔ c.source.aliasOf t = some aliasName := by
  constructor
  · exact h.aliasOf_resolve
  · intro ha
    obtain ⟨e, he, hname⟩ := Option.map_eq_some_iff.mp ha
    have hid : e.identity = t := by simpa using List.find?_some he
    have hfind : c.byAlias? e.aliasName = some e :=
      find?_of_nodup hn (List.mem_of_find?_eq_some he)
    rw [← hname, ← hid]
    simp only [source, hfind, Option.map_some]

/-! ## Shapes that are stored -/

/-- **A catalog that was built stores simple shapes only.** -/
theorem simple_of_build (h : build defs = .ok c) {ds : List Descriptor}
    (hds : c.source.fields t = .ok ds) {d : Descriptor} (hd : d ∈ ds) : d.shape.Simple := by
  obtain ⟨e, he, -, rfl⟩ := exists_of_fields hds
  obtain ⟨x, -, hx⟩ := exists_of_forall₂ (stores_of_build h) e he
  obtain ⟨f, -, -, -, hshape⟩ := exists_of_forall₂ hx.fields d hd
  exact hshape.simple

/-! ## Closed graphs -/

/-- **A closed, unambiguous graph of types.** -/
structure ClosedGraph (c : Catalog) : Prop where
  /-- No alias is listed twice. -/
  aliases : c.aliases.Nodup
  /-- The listed aliases are those that name a type. -/
  listed : ∀ aliasName, aliasName ∈ c.aliases ↔ ∃ t, c.source.resolve aliasName = some t
  /-- The types whose fields are known are those that have an alias. -/
  known : ∀ t, (∃ ds, c.source.fields t = .ok ds) ↔ ∃ aliasName, c.source.aliasOf t = some aliasName
  /-- The two ways between aliases and types are inverse to each other. -/
  inverse : ∀ aliasName t,
    c.source.resolve aliasName = some t ↔ c.source.aliasOf t = some aliasName
  /-- A type that a field refers to is one of those. -/
  closed : ∀ t ds, c.source.fields t = .ok ds → ∀ d ∈ ds, ∀ u, d.shape.target? = some u →
    ∃ us, c.source.fields u = .ok us
  names : c.source.DistinctNames
  simple : ∀ t ds, c.source.fields t = .ok ds → ∀ d ∈ ds, d.shape.Simple
  /-- The standard handlers read shapes as they are meant. -/
  targets : ∀ t ds, c.source.fields t = .ok ds → ∀ d ∈ ds, d.annotations.ignore = false →
    ∀ (base : String) (options : CompilerOptions),
      ((Compiler.ofCatalog c base options).describe t d).target? =
        if (d.annotations.kind.map Kind.isPrimitive).getD false then none else d.shape.target?

/-- **Every catalog that was built is a closed, unambiguous graph of types**, for definitions with
distinct aliases. -/
theorem built_closedGraph (hn : (defs.map (·.1)).Nodup) (h : build defs = .ok c) :
    c.ClosedGraph := by
  have hacc : c.Accepted := ⟨defs, h⟩
  have haliases : c.aliases.Nodup := nodup_aliases_of_build h hn
  constructor
  case aliases => exact haliases
  case listed => exact fun _ => exists_resolve_iff.symm
  case known =>
    intro t
    rw [exists_fields_iff, exists_aliasOf_iff]
  case inverse => exact fun _ _ => hacc.resolve_iff_aliasOf haliases
  case closed =>
    intro t ds hds d hd u hu
    have hrefers := (simple_of_build h hds hd).refersTo hu
    obtain ⟨e, he, -, rfl⟩ := exists_of_fields hds
    exact (hacc.has_of_refersTo he hd hrefers).fields
  case names => exact hacc.distinctNames
  case simple => exact fun _ _ hds _ hd => simple_of_build h hds hd
  case targets =>
    intro t ds hds d hd hi base options
    rw [Compiler.ofCatalog_eq_standard, Compiler.describe_standard]
    exact Handlers.target?_described_of_simple (simple_of_build h hds hd) hi

/-- Two types that go by each other's alias, with references both ways and a field that is made
primitive. -/
def crossed : Definitions := [
  ("a", { name := some "b", fields := [
    { name := "one", type := "b" },
    { name := "many", type := "array", items := some "a" },
    { name := "key", type := "object", items := some "b",
      annotations := { kind := some .string } }] }),
  ("b", { name := some "a", fields := [{ name := "back", type := "a" }] })]

theorem crossed_closedGraph : (crossed.map (·.1)).Nodup ∧ ∃ c, build crossed = .ok c ∧
    c.ClosedGraph ∧ c.source.resolve "a" = some ⟨"b"⟩ ∧ c.source.aliasOf ⟨"a"⟩ = some "b" := by
  have hn : (crossed.map (·.1)).Nodup := by decide
  exact ⟨hn, _, rfl, built_closedGraph hn rfl, by decide, by decide⟩

end Catalog

end SchemaTree
