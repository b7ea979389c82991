import SchemaTree.Proofs.Catalog.Loaded
import SchemaTree.Proofs.Json.Intact

/-!
# What a catalog text is read from

A catalog is read from the first value of a text, and what stands behind that value is not looked
at.

* `Json.Complete`: a text that is one value with nothing but blanks behind it.
* `Definitions.intact_of_decode`: definitions are read from a value without faults.
* `Catalog.ofText_first`: **an accepted text starts with a complete one that says the same
  catalog, whatever stands behind it.**
* `Catalog.not_complete`: a text with more than one value is accepted.
-/

namespace SchemaTree

open Json

namespace Json

/-- One complete document: a value, and nothing but blanks behind it. -/
def Complete (text : String) : Prop :=
  ∃ after, (Reading.ofText text).2 = .ok after ∧ ∀ c ∈ after.rest, IsBlank c

end Json

/-! ## Catalogs are read without faults -/

namespace FieldDefinition

theorem intact_of_add {d d' : Draft} {key : String} {r : Reading} (h : d.add key r = .ok d') :
    r.Intact := by
  rw [Draft.add.eq_def] at h
  split at h
  · obtain ⟨s, hs, -⟩ := map_ok_iff.mp h
    exact Reading.intact_of_asString hs
  · obtain ⟨s, hs, -⟩ := map_ok_iff.mp h
    exact Reading.intact_of_asString hs
  · obtain ⟨s, hs, -⟩ := map_ok_iff.mp h
    exact Reading.intact_of_asOption Reading.intact_of_asString hs
  · obtain ⟨v, hv, -⟩ := map_ok_iff.mp h
    exact Reading.intact_of_asValue r hv

theorem intact_of_read : ∀ (entries : Entries) {d : Draft} {out : Draft × Mark},
    d.read entries = .ok out → entries.Intact
  | .close stop, _, _, _ => trivial
  | .broken fault, _, _, h => by
    rw [Draft.read] at h
    cases h
  | .keyOnly key fault, _, _, h => by
    rw [Draft.read] at h
    split at h <;> cases h
  | .entry key value _ tail, _, _, h => by
    rw [Draft.read] at h
    split at h
    · cases h
    · split at h
      · cases h
      · rename_i d' hd'
        exact ⟨intact_of_add (within_ok hd'), intact_of_read tail h⟩

theorem intact_of_decode {r : Reading} {f : FieldDefinition} (h : decode r = .ok f) :
    r.Intact := by
  rw [decode.eq_def] at h
  split at h
  · split at h
    · rename_i hread
      exact intact_of_read _ hread
    · cases h
  · cases h
  · exact (Reading.mismatch_ok h).elim

end FieldDefinition

namespace TypeDefinition

theorem intact_of_set {d d' : TypeDefinition} {name : String} {r : Reading}
    (hname : name ∈ form.names) (h : d.set name r = .ok d') : r.Intact := by
  rw [set.eq_def] at h
  split at h
  · obtain ⟨s, hs, -⟩ := map_ok_iff.mp h
    exact Reading.intact_of_asOption Reading.intact_of_asString hs
  · obtain ⟨s, hs, -⟩ := map_ok_iff.mp h
    exact Reading.intact_of_asOption Reading.intact_of_asString hs
  · obtain ⟨fs, hfs, -⟩ := map_ok_iff.mp h
    exact Reading.intact_of_asList FieldDefinition.intact_of_decode hfs
  · rename_i hn hd hf
    simp only [form, List.mem_cons, List.not_mem_nil, or_false] at hname
    rcases hname with rfl | rfl | rfl
    · exact (hn rfl).elim
    · exact (hd rfl).elim
    · exact (hf rfl).elim

theorem intact_of_decode {r : Reading} {d : TypeDefinition} (h : decode r = .ok d) :
    r.Intact := by
  obtain ⟨w, hw, -⟩ := map_ok_iff.mp h
  exact (Reading.intact_of_record rfl intact_of_set hw).1

end TypeDefinition

namespace Definitions

/-- **Definitions are read from a value without faults**, which ends with a bracket. -/
theorem intact_of_decode {r : Reading} {defs : Definitions} (h : decode r = .ok defs) :
    r.Intact ∧ r.Bracketed := by
  rw [decode] at h
  split at h
  · cases h
  · rename_i w hw
    exact Reading.intact_of_record rfl
      (fun _ hset => Reading.intact_of_asMap TypeDefinition.intact_of_decode hset) hw

end Definitions

/-! ## Accepted texts -/

namespace Catalog

variable {c : Catalog} {text : String}

theorem exists_after_of_ofText (h : ofText text = .ok c) :
    ∃ r after, Reading.ofText text = (r, .ok after) ∧ r.Bracketed := by
  rw [ofText] at h
  cases hdefs : Definitions.ofText text with
  | error e =>
    rw [hdefs] at h
    cases h
  | ok defs =>
    obtain ⟨hintact, hbracketed⟩ := Definitions.intact_of_decode hdefs
    cases hread : Reading.ofText text with
    | mk r out =>
      rw [hread] at hintact hbracketed
      cases out with
      | error fault => exact ((Reader.not_intact _).1 hread hintact).elim
      | ok after => exact ⟨r, after, rfl, hbracketed⟩

theorem ofText_congr {other : String}
    (h : (Reading.ofText other).1 = (Reading.ofText text).1) : ofText other = ofText text := by
  rw [ofText, ofText, Definitions.ofText, Definitions.ofText, h]

/-- **An accepted text starts with a complete one**, which says the same catalog whatever stands
behind it.  The text itself is complete exactly if nothing but blanks stands there. -/
theorem ofText_first (h : ofText text = .ok c) :
    ∃ first rest : String, text = first ++ rest ∧ Complete first ∧
      (∀ other : String, ofText (first ++ other) = .ok c) ∧
      (Complete text ↔ ∀ d ∈ rest.toList, IsBlank d) := by
  obtain ⟨r, after, hread, hbracketed⟩ := exists_after_of_ofText h
  obtain ⟨taken, -, htext, htakes⟩ := (Reader.value_takes _).1 hread
  -- What was taken ends with a bracket, so it is read in the same way whatever stands behind it.
  have hread' : ∀ other : String, Reading.ofText (String.ofList taken ++ other) =
      (r, .ok ⟨other.toList, after.place⟩) := by
    intro other
    have hlist : (String.ofList taken ++ other).toList = taken ++ other.toList := by simp
    have hlen : taken.length ≤ 2 * (taken ++ other.toList).length + 2 := by
      rw [List.length_append]
      omega
    have htaken := htakes _ other.toList hlen (Or.inl hbracketed)
    rw [Reading.ofText, Reader.run, Cursor.ofString, hlist]
    exact htaken
  have hsplit : text = String.ofList taken ++ String.ofList after.rest := by
    rw [← String.ofList_append, ← htext, Cursor.ofString, String.ofList_toList]
  refine ⟨String.ofList taken, String.ofList after.rest, hsplit, ?_, fun other => ?_, ?_⟩
  · have hfirst := hread' ""
    rw [String.append_empty] at hfirst
    exact ⟨_, congrArg Prod.snd hfirst, fun d hd => by cases hd⟩
  · rw [← h]
    refine ofText_congr ?_
    rw [hread', hread]
  · rw [String.toList_ofList, Complete, hread]
    constructor
    · rintro ⟨after', hafter, hblank⟩
      cases hafter
      exact hblank
    · exact fun hblank => ⟨after, rfl, hblank⟩

/-- Two documents one behind the other: a catalog without types, and one with a type. -/
def twofold : String := "\x7b\"types\":\x7b\x7d\x7d \x7b\"types\":\x7b\"a\":\x7b\x7d\x7d\x7d"

theorem exists_ofText_twofold : ∃ c, ofText twofold = .ok c := by
  have hok : (ofText twofold).isOk = true := by decide +kernel
  cases h : ofText twofold with
  | error e =>
    rw [h] at hok
    cases hok
  | ok c => exact ⟨c, rfl⟩

/-- Two documents are accepted for the first one. -/
theorem ofText_first_sample :
    ∃ c, ofText twofold = .ok c ∧ ∃ first rest : String, twofold = first ++ rest ∧
      Complete first ∧ (∀ other : String, ofText (first ++ other) = .ok c) ∧
      (Complete twofold ↔ ∀ d ∈ rest.toList, IsBlank d) := by
  obtain ⟨c, h⟩ := exists_ofText_twofold
  exact ⟨c, h, ofText_first h⟩

/-- **A text is accepted though it is more than one document.** -/
theorem not_complete :
    ¬ ∀ (text : String) (c : Catalog), ofText text = .ok c → Complete text := by
  intro hall
  obtain ⟨c, h⟩ := exists_ofText_twofold
  obtain ⟨after, hafter, hblank⟩ := hall twofold c h
  have hrest : (Reading.ofText twofold).2.toOption.map (·.rest.contains 'a') = some true := by
    decide +kernel
  rw [hafter] at hrest
  have hmem : 'a' ∈ after.rest := List.contains_iff_mem.mp (Option.some.inj hrest)
  rcases hblank 'a' hmem with h | h | h | h <;> cases h

end Catalog

end SchemaTree
