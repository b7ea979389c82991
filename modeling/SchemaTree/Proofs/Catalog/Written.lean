import SchemaTree.Proofs.Catalog.Exact
import SchemaTree.Proofs.Catalog.Loaded

/-!
# What a catalog file writes

A catalog file writes definitions under aliases, one after the other, and it may write an alias
twice.  The definitions that are read are those of an object, which has each alias once.

* `Definitions.Writes`: the definitions in a text as they are written, repeated aliases included.
* `Definitions.exists_writes`: **what is read from a text is the object of what it writes.**
* `Definitions.load_ok`: what is read from files are the objects of what they write, one behind
  the other.
-/

namespace SchemaTree

/-! ## Members as they are written -/

namespace Json

/-- The members of an object as they are written, repeated keys included. -/
def Reading.members : Reading → List (String × Reading)
  | .object _ entries => entries.toList
  | _ => []

/-- A member that is written is decoded under its key. -/
def Decodes {α : Type} (decode : Reading → Decoded α) (w : String × Reading) (m : String × α) :
    Prop :=
  w.1 = m.1 ∧ decode w.2 = .ok m.2

variable {α : Type} {decode : Reading → Decoded α}

theorem Entries.decode_ok :
    ∀ (entries : Entries) {ms ms' : List (String × α)}, entries.decode decode ms = .ok ms' →
      ∃ pairs, List.Forall₂ (Decodes decode) entries.toList pairs ∧
        ms' = pairs.foldl (fun members (k, v) => Members.insert k v members) ms
  | .close stop, _, _, h => by
    rw [Entries.decode] at h
    cases h
    exact ⟨[], List.Forall₂.nil, rfl⟩
  | .broken fault, _, _, h => by
    rw [Entries.decode] at h
    cases h
  | .keyOnly key fault, _, _, h => by
    rw [Entries.decode] at h
    cases h
  | .entry key value behind tail, _, _, h => by
    rw [Entries.decode] at h
    split at h
    · cases h
    · rename_i a ha
      obtain ⟨pairs, hpairs, rfl⟩ := tail.decode_ok h
      exact ⟨(key.name, a) :: pairs, List.Forall₂.cons ⟨rfl, within_ok ha⟩ hpairs, rfl⟩

/-- **A map is the object of the members that are written.** -/
theorem Reading.asMap_ok {r : Reading} {ms : List (String × α)} (h : r.asMap decode = .ok ms) :
    ∃ pairs, List.Forall₂ (Decodes decode) r.members pairs ∧ ms = Members.ofList pairs := by
  rw [Reading.asMap.eq_def] at h
  split at h
  · exact Entries.decode_ok _ h
  · cases h
  · exact (Reading.mismatch_ok h).elim

end Json

open Json

/-! ## Definitions as they are written -/

namespace Definitions

/-- Where the types of a catalog file stand: under their key, or first in an array. -/
def typesIn : Reading → Option Reading
  | .object _ entries => Members.get? entries.toList "types"
  | .array _ (.item head _) => some head
  | _ => none

/-- **The definitions that a text writes**, repeated aliases included. -/
def Writes (text : String) (ms : Definitions) : Prop :=
  ∃ types, typesIn (Reading.ofText text).1 = some types ∧
    List.Forall₂ (Decodes TypeDefinition.decode) types.members ms

variable {r : Reading} {defs known all : Definitions} {text : String}

theorem record_behind_types {entries : Entries} {w : Written Definitions}
    (h : entries.record form defs ["types"] = .ok w) : w.value = defs := by
  cases entries with
  | close stop =>
    rw [Entries.record] at h
    cases h
    rfl
  | broken fault =>
    rw [Entries.record] at h
    cases h
  | keyOnly key fault =>
    rw [Entries.record] at h
    split at h
    · cases h
    · split at h <;> cases h
  | entry key value behind tail =>
    obtain ⟨name, stop, mark⟩ := key
    unfold Entries.record at h
    split at h
    · rename_i hname
      obtain rfl : name = "types" := by simpa [form] using hname
      rw [if_pos (by simp)] at h
      cases h
    · cases h

theorem record_types_of_entries {entries : Entries} {w : Written Definitions}
    (h : entries.record form [] [] = .ok w) (hseen : w.seen.isEmpty = false) :
    ∃ types, Members.get? entries.toList "types" = some types ∧
      types.asMap TypeDefinition.decode = .ok w.value := by
  cases entries with
  | close stop =>
    rw [Entries.record] at h
    cases h
    cases hseen
  | broken fault =>
    rw [Entries.record] at h
    cases h
  | keyOnly key fault =>
    rw [Entries.record] at h
    split at h
    · cases h
    · split at h <;> cases h
  | entry key value behind tail =>
    obtain ⟨name, stop, mark⟩ := key
    unfold Entries.record at h
    split at h
    · rename_i hname
      obtain rfl : name = "types" := by simpa [form] using hname
      rw [if_neg (by simp)] at h
      split at h
      · cases h
      · rename_i defs' hset
        rw [record_behind_types h]
        refine ⟨value, ?_, within_ok hset⟩
        rw [Entries.toList, Members.get?_cons, if_pos rfl]
    · cases h

theorem record_types_of_items {items : Items} {w : Written Definitions} {start : Mark}
    (h : items.record form [] [] 0 ["types"] = .ok w) (hseen : w.seen.isEmpty = false) :
    ∃ types, typesIn (.array start items) = some types ∧
      types.asMap TypeDefinition.decode = .ok w.value := by
  cases items with
  | close stop =>
    rw [Items.record] at h
    cases h
    cases hseen
  | broken fault =>
    rw [Items.record] at h
    cases h
  | item head tail =>
    rw [Items.record] at h
    split at h
    · cases h
    · rename_i defs' hset
      rw [Items.record] at h
      obtain ⟨stop, -, rfl⟩ := map_ok_iff.mp h
      exact ⟨head, rfl, within_ok hset⟩

/-- **Definitions are read from the types of their file.** -/
theorem decode_ok (h : decode r = .ok defs) :
    ∃ types, typesIn r = some types ∧ types.asMap TypeDefinition.decode = .ok defs := by
  rw [decode] at h
  split at h
  · cases h
  · rename_i w hw
    split at h
    · split at h <;> cases h
    · rename_i hseen
      cases h
      rw [Bool.not_eq_true] at hseen
      rw [Reading.record.eq_def] at hw
      split at hw
      · exact record_types_of_entries hw hseen
      · exact record_types_of_items hw hseen
      · cases hw
      · cases hw
      · exact (Reading.mismatch_ok hw).elim

/-- **What is read from a text is the object of what it writes.** -/
theorem exists_writes (h : ofText text = .ok defs) :
    ∃ ms, Writes text ms ∧ defs = Members.ofList ms := by
  obtain ⟨types, htypes, hmap⟩ := decode_ok h
  obtain ⟨ms, hms, rfl⟩ := Reading.asMap_ok hmap
  exact ⟨ms, ⟨types, htypes, hms⟩, rfl⟩

/-! ## Files -/

/-- The definitions that a file writes. -/
def FileWrites (file : SourceFile) (ms : Definitions) : Prop :=
  ∃ path text, file = (path, .ok text) ∧ Writes text ms

theorem exists_fileWrites {file : SourceFile} (h : file.definitions = .ok defs) :
    ∃ ms, FileWrites file ms ∧ defs = Members.ofList ms := by
  obtain ⟨path, content⟩ := file
  cases content with
  | error cause =>
    rw [SourceFile.definitions] at h
    cases h
  | ok text =>
    rw [SourceFile.definitions] at h
    split at h
    · rename_i defs' hdefs
      cases h
      obtain ⟨ms, hms, heq⟩ := exists_writes hdefs
      exact ⟨ms, ⟨path, text, rfl, hms⟩, heq⟩
    · cases h

theorem merge_ok (h : known.merge defs = .ok all) : all = known ++ defs := by
  induction defs generalizing known with
  | nil =>
    cases h
    rw [List.append_nil]
  | cons e rest ih =>
    obtain ⟨aliasName, d⟩ := e
    rw [merge] at h
    split at h
    · cases h
    · rw [ih h, List.append_assoc, List.singleton_append]

/-- **What is read from files are the objects of what they write, one behind the other.** -/
theorem load_ok {files : List SourceFile} {log log' : Log}
    (h : (load known files).run log = (.ok all, log')) :
    ∃ mss, List.Forall₂ FileWrites files mss ∧
      all = known ++ (mss.map Members.ofList).flatten := by
  induction files generalizing known log with
  | nil =>
    obtain ⟨rfl, -⟩ := Stateful.pure_ok h
    exact ⟨[], List.Forall₂.nil, by simp⟩
  | cons file files ih =>
    rw [load] at h
    split at h
    · exact (Stateful.throw_ok h).elim
    · rename_i defs hdefs
      obtain ⟨_, log₁, -, hrest⟩ := Stateful.bind_ok h
      split at hrest
      · exact (Stateful.throw_ok hrest).elim
      · rename_i merged hmerge
        obtain ⟨ms, hms, hread⟩ := exists_fileWrites hdefs
        obtain ⟨mss, hmss, hall⟩ := ih hrest
        refine ⟨ms :: mss, List.Forall₂.cons hms hmss, ?_⟩
        rw [hall, merge_ok hmerge, hread, List.map_cons, List.flatten_cons, List.append_assoc]

end Definitions

end SchemaTree
