import SchemaTree.Proofs.FirstFailure
import SchemaTree.Proofs.Json.Decoding

/-!
# Distinct keys

Members are inserted one by one, so no object that is read has two members with the same key, even if
its text repeats one.

* `Value.Distinct`: values whose objects have distinct keys.
* `Value.Distinct.get?`: each member of such a value is found under its key.
* `Value.distinct_of_ofText`: **whatever a text denotes has distinct keys.**
-/

namespace SchemaTree.Json

/-! ## Values -/

mutual

/-- No object in a value has two members with the same key. -/
def Value.Distinct : Value → Prop
  | .array items => Value.AllDistinct items
  | .object ms => (ms.map (·.1)).Nodup ∧ Members.AllDistinct ms
  | _ => True

def Value.AllDistinct : List Value → Prop
  | [] => True
  | v :: vs => v.Distinct ∧ Value.AllDistinct vs

def Members.AllDistinct : Members → Prop
  | [] => True
  | (_, v) :: ms => v.Distinct ∧ Members.AllDistinct ms

end

variable {ms : Members} {k : String} {v : Value}

theorem Members.AllDistinct.of_mem (h : Members.AllDistinct ms) (hv : (k, v) ∈ ms) :
    v.Distinct := by
  induction ms with
  | nil => exact absurd hv List.not_mem_nil
  | cons e ms ih =>
    obtain ⟨hhead, htail⟩ := h
    rcases List.mem_cons.mp hv with rfl | hv
    · exact hhead
    · exact ih htail hv

theorem Members.AllDistinct.insert (h : Members.AllDistinct ms) (hv : v.Distinct) :
    Members.AllDistinct (Members.insert k v ms) := by
  induction ms with
  | nil => exact ⟨hv, h⟩
  | cons e ms ih =>
    obtain ⟨hhead, htail⟩ := h
    rw [Members.insert]
    split
    · exact ⟨hv, htail⟩
    · exact ⟨hhead, ih htail⟩

theorem Value.Distinct.member (h : (Value.object ms).Distinct) (hv : (k, v) ∈ ms) : v.Distinct :=
  h.2.of_mem hv

/-- **In a value with distinct keys each member is found under its key.** -/
theorem Value.Distinct.get? (h : (Value.object ms).Distinct) (hv : (k, v) ∈ ms) :
    Members.get? ms k = some v := by
  have hfind := Members.get?_ofList_of_mem h.1 hv
  rwa [Members.ofList_of_nodup h.1] at hfind

/-! ## Values that are read -/

mutual

/-- **Whatever a reading denotes has distinct keys.** -/
theorem Reading.distinct_asValue : ∀ (r : Reading) {v : Value}, r.asValue = .ok v → v.Distinct
  | .scalar s _ _, v, h => by
    rw [Reading.asValue] at h
    cases h
    cases s <;> exact trivial
  | .array _ items, v, h => by
    rw [Reading.asValue] at h
    obtain ⟨vs, hvs, rfl⟩ := map_ok_iff.mp h
    exact items.distinct_asValues 0 hvs
  | .object _ entries, v, h => by
    rw [Reading.asValue] at h
    obtain ⟨ms, hms, rfl⟩ := map_ok_iff.mp h
    have hnil : (([] : Members).map (·.1)).Nodup := List.nodup_nil
    exact entries.distinct_asMembers hnil trivial hms
  | .broken _ _ fault, v, h => by
    rw [Reading.asValue] at h
    cases h

theorem Items.distinct_asValues : ∀ (items : Items) (index : Nat) {vs : List Value},
    items.asValues index = .ok vs → Value.AllDistinct vs
  | .close _, _, vs, h => by
    rw [Items.asValues] at h
    cases h
    exact trivial
  | .broken _, _, vs, h => by
    rw [Items.asValues] at h
    cases h
  | .item head tail, index, vs, h => by
    rw [Items.asValues] at h
    split at h
    · cases h
    · rename_i v hv
      obtain ⟨vs, hvs, rfl⟩ := map_ok_iff.mp h
      exact ⟨head.distinct_asValue (within_ok hv), tail.distinct_asValues (index + 1) hvs⟩

theorem Entries.distinct_asMembers : ∀ (entries : Entries) {ms ms' : Members},
    (ms.map (·.1)).Nodup → Members.AllDistinct ms → entries.asMembers ms = .ok ms' →
      (Value.object ms').Distinct
  | .close _, ms, ms', hn, hms, h => by
    rw [Entries.asMembers] at h
    cases h
    exact ⟨hn, hms⟩
  | .broken _, _, _, _, _, h => by
    rw [Entries.asMembers] at h
    cases h
  | .keyOnly _ _, _, _, _, _, h => by
    rw [Entries.asMembers] at h
    cases h
  | .entry key value _ tail, ms, ms', hn, hms, h => by
    rw [Entries.asMembers] at h
    split at h
    · cases h
    · rename_i v hv
      exact tail.distinct_asMembers (Members.nodup_insert hn)
        (hms.insert (value.distinct_asValue (within_ok hv))) h

end

theorem decodeWhole_ok {α : Type} {decode : Reading → Decoded α}
    {read : Reading × Except Fault Cursor} {a : α} (h : decodeWhole decode read = .ok a) :
    decode read.1 = .ok a := by
  obtain ⟨r, out⟩ := read
  unfold decodeWhole at h
  cases hd : decode r with
  | error refusal =>
    rw [hd] at h
    cases h
  | ok b =>
    rw [hd] at h
    cases out with
    | error fault => cases h
    | ok cursor =>
      cases hend : cursor.checkEnd with
      | error fault => simp [hend, Bind.bind, Except.bind] at h
      | ok _ => simpa [hend, Bind.bind, Except.bind, Pure.pure, Except.pure] using h

/-- **Whatever a text denotes has distinct keys**, even if the text repeats one. -/
theorem Value.distinct_of_ofText {text : String} {v : Value} (h : Value.ofText text = .ok v) :
    v.Distinct := Reading.distinct_asValue _ (decodeWhole_ok h)

end SchemaTree.Json
