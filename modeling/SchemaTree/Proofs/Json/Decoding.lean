import SchemaTree.Json.Decoder
import SchemaTree.Proofs.FirstFailure
import SchemaTree.Proofs.Json.Members

/-!
# Decoded readings

What a decoder that succeeds has seen, and what it makes of it.

* `Entries.toList`, `Items.toList`, `Reading.parts`: the readings inside a reading.
* `Entries.record_invariant`, `Items.record_invariant`, `Reading.record_induction`: **what setting
  members keeps holds of a record that is decoded.**
* `Reading.record_of_mem`: a member that is written is set, and later ones do not undo it.
* `Reading.nodup_of_asMap`: the keys of a map that is decoded are distinct.
-/

namespace SchemaTree.Json

variable {α : Type} {form : RecordForm α} {P : α → Prop}

theorem within_ok {step : Step} {d : Decoded α} {a : α} (h : within step d = .ok a) :
    d = .ok a := by
  cases d with
  | ok b => exact h
  | error r => cases h

theorem Reading.mismatch_ok {r : Reading} {expected : String} {a : α}
    (h : r.mismatch expected = .ok a) : False := by
  unfold Reading.mismatch at h
  split at h <;> cases h

/-- The entries of an object as they are written. -/
def Entries.toList : Entries → List (String × Reading)
  | .close _ => []
  | .broken _ => []
  | .keyOnly _ _ => []
  | .entry key value _ tail => (key.name, value) :: tail.toList

/-- The items of an array. -/
def Items.toList : Items → List Reading
  | .close _ => []
  | .broken _ => []
  | .item head tail => head :: tail.toList

/-- The readings right inside a reading. -/
def Reading.parts : Reading → List Reading
  | .array _ items => items.toList
  | .object _ entries => entries.toList.map (·.2)
  | _ => []

/-- **What setting members keeps holds of a record that is decoded from an object**, where no member
is set twice. -/
theorem Entries.record_invariant {Q : α → List String → Prop} : ∀ (entries : Entries) {a : α}
    {seen : List String} {w : Written α},
      (∀ a seen name p a', name ∉ seen → p ∈ entries.toList.map (·.2) →
        form.set a name p = .ok a' → Q a seen → Q a' (name :: seen)) →
        entries.record form a seen = .ok w → Q a seen → Q w.value w.seen
  | .close stop, _, _, _, _, h, ha => by
    rw [Entries.record] at h
    cases h
    exact ha
  | .broken fault, _, _, _, _, h, _ => by
    rw [Entries.record] at h
    cases h
  | .keyOnly key fault, _, _, _, _, h, _ => by
    rw [Entries.record] at h
    split at h
    · cases h
    · split at h <;> cases h
  | .entry ⟨name, _, _⟩ value behind tail, _, _, _, hset, h, ha => by
    have htail : ∀ a seen name p a', name ∉ seen → p ∈ tail.toList.map (·.2) →
        form.set a name p = .ok a' → Q a seen → Q a' (name :: seen) :=
      fun a seen name p a' hname hp => hset a seen name p a' hname (List.mem_cons_of_mem _ hp)
    unfold Entries.record at h
    -- A member is set if it is wanted and was not yet there; other entries change nothing.
    split at h
    · split at h
      · cases h
      · rename_i hfresh
        split at h
        · cases h
        · rename_i a' ha'
          have hname : name ∉ _ := fun hmem => hfresh (List.contains_iff_mem.mpr hmem)
          exact tail.record_invariant htail h
            (hset _ _ _ _ _ hname List.mem_cons_self (within_ok ha') ha)
    · split at h
      · cases h
      · split at h
        · cases h
        · exact tail.record_invariant htail h ha

/-- **What setting members keeps holds of a record that is decoded from an array.** -/
theorem Items.record_invariant {names : List String} {items : Items} {a : α}
    {seen : List String} {index : Nat} {w : Written α}
    (hset : ∀ a name p a', name ∈ names → p ∈ items.toList → form.set a name p = .ok a' →
      P a → P a')
    (h : items.record form a seen index names = .ok w) (ha : P a) : P w.value := by
  induction names generalizing items a seen index with
  | nil =>
    rw [Items.record] at h
    obtain ⟨stop, -, rfl⟩ := map_ok_iff.mp h
    exact ha
  | cons name names ih =>
    cases items with
    | close stop =>
      rw [Items.record] at h
      cases h
      exact ha
    | broken fault =>
      rw [Items.record] at h
      cases h
    | item head tail =>
      rw [Items.record] at h
      split at h
      · cases h
      · rename_i a' ha'
        have htail : ∀ a name p a', name ∈ names → p ∈ tail.toList →
            form.set a name p = .ok a' → P a → P a' := fun a name p a' hname hp =>
          hset a name p a' (List.mem_cons_of_mem _ hname) (List.mem_cons_of_mem _ hp)
        exact ih htail h (hset _ _ _ _ List.mem_cons_self List.mem_cons_self (within_ok ha') ha)

/-- **What holds at first and is kept by setting members from the parts of a reading holds of a
record that is decoded.** -/
theorem Reading.record_induction {r : Reading} {a : α} {w : Written α}
    (hset : ∀ a name p a', p ∈ r.parts → form.set a name p = .ok a' → P a → P a')
    (h : r.record form a = .ok w) (ha : P a) : P w.value := by
  rw [Reading.record.eq_def] at h
  split at h
  · exact Entries.record_invariant (Q := fun a _ => P a) _
      (fun a _ name p a' _ hp => hset a name p a' hp) h ha
  · exact Items.record_invariant (fun a name p a' _ hp => hset a name p a' hp) h ha
  · cases h
  · cases h
  · exact (Reading.mismatch_ok h).elim

/-! ## One member of a record -/

/-- The members of a record as they are written: an array lists them in the order of their names. -/
def Reading.membersOf (names : List String) : Reading → List (String × Reading)
  | .array _ items => names.zip items.toList
  | .object _ entries => entries.toList
  | _ => []

section

variable {key : String} {p : Reading}

theorem Entries.record_of_mem (hkey : key ∈ form.names)
    (hset : ∀ a a', form.set a key p = .ok a' → P a')
    (hkeep : ∀ a name q a', name ≠ key → form.set a name q = .ok a' → P a → P a') :
    ∀ (entries : Entries) {a : α} {seen : List String} {w : Written α},
      (key, p) ∈ entries.toList → entries.record form a seen = .ok w → P w.value
  | .entry ⟨name, _, _⟩ value behind tail, _, seen, _, hmem, h => by
    have hmem' : (key, p) = (name, value) ∨ (key, p) ∈ tail.toList := List.mem_cons.mp hmem
    unfold Entries.record at h
    split at h
    · split at h
      · cases h
      · split at h
        · cases h
        · rename_i a' ha'
          rcases hmem' with heq | htail
          · cases heq
            -- The member is not set again, as its name was seen.
            have hkept := tail.record_invariant (Q := fun a seen => key ∈ seen ∧ P a)
              (fun a seen name q a' hname _ hq ha => ⟨List.mem_cons_of_mem _ ha.1,
                hkeep a name q a' (fun heq => hname (heq ▸ ha.1)) hq ha.2⟩)
              h ⟨List.mem_cons_self, hset _ _ (within_ok ha')⟩
            exact hkept.2
          · exact tail.record_of_mem hkey hset hkeep htail h
    · rename_i hunknown
      have htail : (key, p) ∈ tail.toList := by
        rcases hmem' with heq | htail
        · cases heq
          exact absurd (List.contains_iff_mem.mpr hkey) hunknown
        · exact htail
      split at h
      · cases h
      · split at h
        · cases h
        · exact tail.record_of_mem hkey hset hkeep htail h

theorem Items.record_of_mem (hset : ∀ a a', form.set a key p = .ok a' → P a')
    (hkeep : ∀ a name q a', name ≠ key → form.set a name q = .ok a' → P a → P a')
    {names : List String} {items : Items} {a : α} {seen : List String} {index : Nat}
    {w : Written α} (hn : names.Nodup) (hmem : (key, p) ∈ names.zip items.toList)
    (h : items.record form a seen index names = .ok w) : P w.value := by
  induction names generalizing items a seen index with
  | nil => exact absurd hmem List.not_mem_nil
  | cons name names ih =>
    obtain ⟨hname, hnames⟩ := List.nodup_cons.mp hn
    cases items with
    | close stop => exact absurd hmem List.not_mem_nil
    | broken fault => exact absurd hmem List.not_mem_nil
    | item head tail =>
      rw [Items.record] at h
      split at h
      · cases h
      · rename_i a' ha'
        rw [Items.toList, List.zip_cons_cons] at hmem
        rcases List.mem_cons.mp hmem with heq | htail
        · cases heq
          exact Items.record_invariant
            (fun a other q a' hmem _ => hkeep a other q a' (fun heq => hname (heq ▸ hmem))) h
            (hset _ _ (within_ok ha'))
        · exact ih hnames htail h

/-- **What setting a member makes true is true of a record in which the member is written**, if
setting the other members keeps it. -/
theorem Reading.record_of_mem {r : Reading} {a : α} {w : Written α} (hn : form.names.Nodup)
    (hkey : key ∈ form.names) (hset : ∀ a a', form.set a key p = .ok a' → P a')
    (hkeep : ∀ a name q a', name ≠ key → form.set a name q = .ok a' → P a → P a')
    (hmem : (key, p) ∈ r.membersOf form.names) (h : r.record form a = .ok w) : P w.value := by
  cases r with
  | scalar v start stop => exact absurd hmem List.not_mem_nil
  | broken lead start fault => exact absurd hmem List.not_mem_nil
  | array start items => exact Items.record_of_mem hset hkeep hn hmem h
  | object start entries => exact entries.record_of_mem hkey hset hkeep hmem h

end

/-! ## Maps -/

variable {decode : Reading → Decoded α}

theorem Entries.nodup_of_decode :
    ∀ (entries : Entries) {ms ms' : List (String × α)}, entries.decode decode ms = .ok ms' →
      (ms.map (·.1)).Nodup → (ms'.map (·.1)).Nodup
  | .close stop, _, _, h, hms => by
    rw [Entries.decode] at h
    cases h
    exact hms
  | .broken fault, _, _, h, _ => by
    rw [Entries.decode] at h
    cases h
  | .keyOnly key fault, _, _, h, _ => by
    rw [Entries.decode] at h
    cases h
  | .entry key value behind tail, _, _, h, hms => by
    rw [Entries.decode] at h
    split at h
    · cases h
    · exact tail.nodup_of_decode h (Members.nodup_insert hms)

theorem Reading.nodup_of_asMap {r : Reading} {ms : List (String × α)}
    (h : r.asMap decode = .ok ms) : (ms.map (·.1)).Nodup := by
  rw [Reading.asMap.eq_def] at h
  split at h
  · exact Entries.nodup_of_decode _ h List.nodup_nil
  · cases h
  · exact (Reading.mismatch_ok h).elim

end SchemaTree.Json
