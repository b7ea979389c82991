import SchemaTree.Proofs.Catalog.Closed
import SchemaTree.Proofs.Json.Decoding
import SchemaTree.Proofs.Stateful

/-!
# Loaded catalogs

A catalog that is loaded comes from a document, or from several files of documents.  A repeated
alias of a document takes the place of the first one, and one that is repeated in another file is
refused, so **the aliases of a loaded catalog are distinct**, just as its identities are.

* `Definitions.nodup_of_decode`, `Definitions.nodup_of_load`: the aliases in a document, and in
  files.
* `Catalog.Loaded`: the three ways to load a catalog.
* `Loaded.eq_of_aliasFor`: **no two types of a loaded catalog have the same alias.**
-/

namespace SchemaTree

/-! ## Definitions -/

namespace Definitions

variable {known defs all : Definitions}

/-- **The aliases in a document are distinct.** -/
theorem nodup_of_decode {r : Json.Reading} (h : decode r = .ok defs) :
    (defs.map (·.1)).Nodup := by
  rw [decode] at h
  split at h
  · cases h
  · rename_i written hwritten
    split at h
    · split at h <;> cases h
    · cases h
      refine Json.Reading.record_induction (P := fun defs => (defs.map (·.1)).Nodup) ?_
        hwritten List.nodup_nil
      exact fun _ _ _ _ _ hset _ => Json.Reading.nodup_of_asMap hset

theorem nodup_of_merge (h : known.merge defs = .ok all) (hk : (known.map (·.1)).Nodup) :
    (all.map (·.1)).Nodup := by
  induction defs generalizing known with
  | nil =>
    cases h
    exact hk
  | cons e rest ih =>
    obtain ⟨aliasName, d⟩ := e
    rw [merge] at h
    split at h
    · cases h
    · rename_i hnew
      refine ih h ?_
      rw [List.map_append, List.map_singleton, List.nodup_append]
      refine ⟨hk, List.nodup_singleton _, ?_⟩
      intro a ha b hb hab
      obtain rfl := List.mem_singleton.mp hb
      obtain ⟨e, he, rfl⟩ := List.mem_map.mp ha
      exact hnew (List.any_eq_true.mpr ⟨e, he, by simpa using hab⟩)

/-- **The aliases in several files are distinct.** -/
theorem nodup_of_load {files : List SourceFile} {log log' : Log}
    (h : (load known files).run log = (.ok all, log')) (hk : (known.map (·.1)).Nodup) :
    (all.map (·.1)).Nodup := by
  induction files generalizing known log with
  | nil =>
    obtain ⟨rfl, -⟩ := Stateful.pure_ok h
    exact hk
  | cons file files ih =>
    rw [load] at h
    split at h
    · exact (Stateful.throw_ok h).elim
    · obtain ⟨_, log₁, -, h⟩ := Stateful.bind_ok h
      split at h
      · exact (Stateful.throw_ok h).elim
      · rename_i merged hmerge
        exact ih h (nodup_of_merge hmerge hk)

end Definitions

theorem buildTypes_aliases {aliases : Aliases} {defs : Definitions} {types : List CatalogType}
    (h : buildTypes aliases defs = .ok types) : types.map (·.aliasName) = defs.map (·.1) := by
  induction defs generalizing types with
  | nil =>
    cases h
    rfl
  | cons e rest ih =>
    obtain ⟨fields, types', -, hrest, rfl⟩ := buildTypes_cons h
    rw [List.map_cons, List.map_cons, ih hrest]

/-! ## Loaded catalogs -/

namespace Catalog

/-- A catalog that was loaded from a text, from a value in memory or from files. -/
inductive Loaded (c : Catalog) : Prop
  | ofText {text : String} (h : ofText text = .ok c)
  | ofValue {v : Json.Value} (h : ofValue v = .ok c)
  | ofFiles {files : List SourceFile} (h : (ofFiles files).1 = .ok c)

variable {c : Catalog} {t u : TypeId}

theorem Loaded.accepted (h : c.Loaded) : c.Accepted := by
  cases h with
  | ofText h => exact Accepted.of_ofText h
  | ofValue h => exact Accepted.of_ofValue h
  | ofFiles h => exact Accepted.of_ofFiles h

theorem nodup_aliases_of_build {defs : Definitions} (h : build defs = .ok c)
    (hdefs : (defs.map (·.1)).Nodup) : c.aliases.Nodup := by
  obtain ⟨aliases, -, ht⟩ := build_ok h
  rw [Catalog.aliases, buildTypes_aliases ht]
  exact hdefs

theorem nodup_aliases_of_ofDecoded {r : Json.Reading}
    (h : ofDecoded (Definitions.decode r) = .ok c) : c.aliases.Nodup := by
  cases hd : Definitions.decode r with
  | error e =>
    rw [hd] at h
    cases h
  | ok defs =>
    rw [hd] at h
    exact nodup_aliases_of_build h (Definitions.nodup_of_decode hd)

/-- **The aliases of a loaded catalog are distinct.** -/
theorem Loaded.nodup_aliases (h : c.Loaded) : c.aliases.Nodup := by
  cases h with
  | ofText h => exact nodup_aliases_of_ofDecoded h
  | ofValue h => exact nodup_aliases_of_ofDecoded h
  | @ofFiles files h =>
    cases hl : (Definitions.load [] files).run.run [] with
    | mk result log =>
      simp only [Catalog.ofFiles, hl] at h
      cases result with
      | ok defs => exact nodup_aliases_of_build h (Definitions.nodup_of_load hl List.nodup_nil)
      | error e => cases h

theorem Loaded.resolve_aliasName (h : c.Loaded) {e : CatalogType} (he : e ∈ c.types) :
    c.source.resolve e.aliasName = some e.identity := by
  have hfind : c.byAlias? e.aliasName = some e := find?_of_nodup h.nodup_aliases he
  simp only [source, hfind, Option.map_some]

/-- **No two types of a loaded catalog have the same alias.** -/
theorem Loaded.eq_of_aliasFor (h : c.Loaded) (ht : c.Has t) (hu : c.Has u)
    (ha : c.source.aliasFor t = c.source.aliasFor u) : t = u := by
  obtain ⟨e, he, rfl, -, hte⟩ := ht.entry
  obtain ⟨e', he', rfl, -, hue⟩ := hu.entry
  rw [TypeSource.aliasFor, TypeSource.aliasFor, hte, hue] at ha
  rw [List.inj_on_of_nodup_map h.nodup_aliases he he' ha]

/-- The document from which the sample catalog is loaded. -/
def sampleDocument : Json.Value :=
  .object [("types", .object [
    ("order", .object [("fields", .array [
      .object [("name", .string "buyer"), ("type", .string "customer")],
      .object [("name", .string "items"), ("type", .string "array"), ("items", .string "item")]])]),
    ("customer", .object [("fields", .array [
      .object [("name", .string "name"), ("type", .string "string")],
      .object [("name", .string "last"), ("type", .string "order")]])]),
    ("item", .object [("name", .string "Item"), ("fields", .array [
      .object [("name", .string "owner"), ("type", .string "customer")]])])])]

theorem loaded_sample : sample.Loaded := Loaded.ofValue (v := sampleDocument) rfl

end Catalog

end SchemaTree
