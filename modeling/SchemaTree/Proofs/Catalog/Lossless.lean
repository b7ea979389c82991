import SchemaTree.Proofs.Catalog.Written

/-!
# What loading keeps

A definition is kept if its alias resolves to its identity, and its description and fields are
found under it.  Loading keeps the definitions of an object, which has each alias once.

* `Catalog.keeps_of_build`: **definitions of distinct aliases are kept.**
* `Catalog.loading_keeps`: of a text or of files, the last definition of each alias in a text is
  kept; **all that is written is kept exactly if no text repeats an alias.**  No alias is written
  in two files.
* `Catalog.not_keeps`: a text that repeats an alias is accepted, and loses a definition.
-/

namespace SchemaTree

open Json Definitions

namespace Catalog

/-! ## Kept definitions -/

/-- A definition among others is kept: its alias resolves to its identity, under which its
description is found, and the fields that it denotes. -/
structure Holds (c : Catalog) (ms : Definitions) (m : String × TypeDefinition) : Prop where
  resolve : c.source.resolve m.1 = some (m.2.identity m.1)
  description : c.source.description (m.2.identity m.1) = m.2.description
  fields : ∃ fields, c.source.fields (m.2.identity m.1) = .ok fields ∧
    List.Forall₂ ms.StoresField m.2.fields fields

/-- **Definitions are kept without loss**: each one is, and the catalog has as many types. -/
structure Keeps (c : Catalog) (ms : Definitions) : Prop where
  length : c.types.length = ms.length
  holds : ∀ m ∈ ms, c.Holds ms m

variable {c : Catalog} {defs : Definitions} {files : List SourceFile}

theorem length_of_build (h : build defs = .ok c) : c.types.length = defs.length :=
  (stores_of_build h).length_eq.symm

/-- **Definitions of distinct aliases are kept.** -/
theorem keeps_of_build (h : build defs = .ok c) (hn : (defs.map (·.1)).Nodup) :
    c.Keeps defs := by
  have haccepted : c.Accepted := ⟨defs, h⟩
  refine ⟨length_of_build h, fun m hm => ?_⟩
  obtain ⟨i, hi, rfl⟩ := List.mem_iff_getElem.mp hm
  have hi' : i < c.types.length := by rwa [length_of_build h]
  have hstores : defs.Stores defs[i] c.types[i] :=
    (List.forall₂_iff_get.mp (stores_of_build h)).2 i hi hi'
  have ht : c.types[i] ∈ c.types := List.getElem_mem hi'
  have halias : c.byAlias? c.types[i].aliasName = some c.types[i] :=
    find?_of_nodup (nodup_aliases_of_build h hn) ht
  have hid := haccepted.byIdentity? ht
  rw [hstores.aliasName] at halias
  rw [hstores.identity] at hid
  refine ⟨?_, ?_, c.types[i].fields, ?_, hstores.fields⟩
  · simp only [source, halias, Option.map_some, hstores.identity]
  · simp only [source, hid, Option.bind_some, hstores.description]
  · simp only [source, hid]

/-! ## Texts and files -/

theorem exists_writes_of_ofText {text : String} (h : ofText text = .ok c) :
    ∃ ms, Writes text ms ∧ build (Members.ofList ms) = .ok c := by
  rw [ofText] at h
  cases hdefs : Definitions.ofText text with
  | error e =>
    rw [hdefs] at h
    cases h
  | ok defs =>
    rw [hdefs] at h
    obtain ⟨ms, hms, rfl⟩ := exists_writes hdefs
    exact ⟨ms, hms, h⟩

theorem exists_writes_of_ofFiles (h : (ofFiles files).1 = .ok c) :
    ∃ mss, List.Forall₂ FileWrites files mss ∧ build (mss.map Members.ofList).flatten = .ok c ∧
      ((mss.map Members.ofList).flatten.map (·.1)).Nodup := by
  cases hl : (Definitions.load [] files).run.run [] with
  | mk result log =>
    simp only [ofFiles, hl] at h
    cases result with
    | error e => cases h
    | ok defs =>
      have hnodup : (defs.map (·.1)).Nodup := nodup_of_load hl List.nodup_nil
      obtain ⟨mss, hmss, hdefs⟩ := load_ok hl
      rw [List.nil_append] at hdefs
      subst hdefs
      exact ⟨mss, hmss, h, hnodup⟩

theorem pairwise_of_nodup {mss : List Definitions}
    (h : ((mss.map Members.ofList).flatten.map (·.1)).Nodup) :
    mss.Pairwise fun ms ns => ∀ m ∈ ms, ∀ n ∈ ns, m.1 ≠ n.1 := by
  induction mss with
  | nil => exact List.Pairwise.nil
  | cons ms mss ih =>
    rw [List.map_cons, List.flatten_cons, List.map_append, List.nodup_append] at h
    obtain ⟨-, htail, hapart⟩ := h
    refine List.Pairwise.cons (fun ns hns m hm n hn => ?_) (ih htail)
    have hleft : m.1 ∈ (Members.ofList ms).map (·.1) :=
      Members.mem_keys_ofList.mpr (List.mem_map_of_mem hm)
    have hright : n.1 ∈ (Members.ofList ns).map (·.1) :=
      Members.mem_keys_ofList.mpr (List.mem_map_of_mem hn)
    obtain ⟨e, he, hkey⟩ := List.mem_map.mp hright
    have hmem : e ∈ (mss.map Members.ofList).flatten :=
      List.mem_flatten.mpr ⟨_, List.mem_map_of_mem hns, he⟩
    exact hapart _ hleft _ (hkey ▸ List.mem_map_of_mem hmem)

/-- **What loading keeps.** Of a text, the last definition of each alias is kept, and all that is
written exactly if no alias is repeated.  Of files, that holds in each of them, and no alias is
written in two. -/
theorem loading_keeps (c : Catalog) :
    (∀ text, ofText text = .ok c →
      ∃ ms, Writes text ms ∧ c.Keeps (Members.ofList ms) ∧
        (c.Keeps ms ↔ (ms.map (·.1)).Nodup)) ∧
    (∀ files, (ofFiles files).1 = .ok c →
      ∃ mss, List.Forall₂ FileWrites files mss ∧
        (mss.Pairwise fun ms ns => ∀ m ∈ ms, ∀ n ∈ ns, m.1 ≠ n.1) ∧
        c.Keeps (mss.map Members.ofList).flatten ∧
        (c.Keeps mss.flatten ↔ ∀ ms ∈ mss, (ms.map (·.1)).Nodup)) := by
  constructor
  · intro text h
    obtain ⟨ms, hms, hbuild⟩ := exists_writes_of_ofText h
    have hkept : c.Keeps (Members.ofList ms) :=
      keeps_of_build hbuild (Members.nodup_ofList ms)
    refine ⟨ms, hms, hkept, fun hk => ?_, fun hn => ?_⟩
    · rw [← Members.length_ofList_eq_iff, ← hkept.length, hk.length]
    · rwa [Members.ofList_of_nodup hn] at hkept
  · intro files h
    obtain ⟨mss, hmss, hbuild, hnodup⟩ := exists_writes_of_ofFiles h
    have hkept := keeps_of_build hbuild hnodup
    refine ⟨mss, hmss, pairwise_of_nodup hnodup, hkept, fun hk => ?_, fun hn => ?_⟩
    · rw [← Members.length_flatten_ofList_eq_iff, ← hkept.length, hk.length]
    · have hsame : mss.map Members.ofList = mss := by
        rw [List.map_congr_left fun ms hms => Members.ofList_of_nodup (hn ms hms), List.map_id']
      rwa [hsame] at hkept

/-- A text with one type. -/
def single : String := "\x7b\"types\":\x7b\"b\":\x7b\x7d\x7d\x7d"

/-- A text in which the alias of one type is written twice. -/
def repeating : String :=
  "\x7b\"types\":\x7b\"a\":\x7b\"description\":\"x\"\x7d,\"a\":\x7b\x7d\x7d\x7d"

/-- Both texts are loaded, alone and as files. -/
theorem loading_keeps_sample :
    (∃ c, ofText repeating = .ok c ∧
      ∃ ms, Writes repeating ms ∧ c.Keeps (Members.ofList ms) ∧
        (c.Keeps ms ↔ (ms.map (·.1)).Nodup)) ∧
    (∃ c, (ofFiles [("one", .ok single), ("two", .ok repeating)]).1 = .ok c ∧
      ∃ mss, List.Forall₂ FileWrites [("one", .ok single), ("two", .ok repeating)] mss ∧
        (mss.Pairwise fun ms ns => ∀ m ∈ ms, ∀ n ∈ ns, m.1 ≠ n.1) ∧
        c.Keeps (mss.map Members.ofList).flatten ∧
        (c.Keeps mss.flatten ↔ ∀ ms ∈ mss, (ms.map (·.1)).Nodup)) := by
  have htext : (ofText repeating).isOk = true := by decide +kernel
  have hfiles : (ofFiles [("one", .ok single), ("two", .ok repeating)]).1.isOk = true := by
    decide +kernel
  constructor
  · cases h : ofText repeating with
    | error e =>
      rw [h] at htext
      cases htext
    | ok c => exact ⟨c, rfl, (loading_keeps c).1 _ h⟩
  · cases h : (ofFiles [("one", .ok single), ("two", .ok repeating)]).1 with
    | error e =>
      rw [h] at hfiles
      cases hfiles
    | ok c => exact ⟨c, rfl, (loading_keeps c).2 _ h⟩

/-- **A text that repeats an alias loses a definition**: it writes two, and its catalog has one
type. -/
theorem not_keeps :
    ¬ ∀ (text : String) (c : Catalog) (ms : Definitions), ofText text = .ok c →
      Writes text ms → c.Keeps ms := by
  intro hall
  have htypes : (ofText repeating).toOption.map (·.types.length) = some 1 := by decide +kernel
  have hwritten : (typesIn (Reading.ofText repeating).1).map (·.members.length) = some 2 := by
    decide +kernel
  cases h : ofText repeating with
  | error e =>
    rw [h] at htypes
    cases htypes
  | ok c =>
    rw [h] at htypes
    obtain ⟨ms, hms, -⟩ := exists_writes_of_ofText h
    have hone : c.types.length = 1 := Option.some.inj htypes
    have htwo : ms.length = 2 := by
      obtain ⟨types, ht, hforall⟩ := hms
      rw [ht] at hwritten
      rw [← hforall.length_eq]
      exact Option.some.inj hwritten
    have hkept := (hall repeating c ms h hms).length
    omega

end Catalog

end SchemaTree
