import SchemaTree.Proofs.FirstFailure
import SchemaTree.Proofs.Json.Decoding
import SchemaTree.Proofs.Json.Prefix

/-!
# Readings without faults

A decoder that goes through a whole reading succeeds only if there is no fault in it, and a text
that cannot be read to the end of its value leaves a fault in its reading.

* `Reading.Intact`: no part of a reading is broken.
* `Reader.not_intact`: **what hides the rest of a text is seen in the reading.**
* `Reading.intact_of_asValue`, `Reading.intact_of_record`: decoders look at every part.
-/

namespace SchemaTree.Json

mutual

/-- No part of a reading is broken. -/
def Reading.Intact : Reading → Prop
  | .scalar _ _ _ => True
  | .array _ items => items.Intact
  | .object _ entries => entries.Intact
  | .broken _ _ _ => False

def Items.Intact : Items → Prop
  | .close _ => True
  | .broken _ => False
  | .item head tail => head.Intact ∧ tail.Intact

def Entries.Intact : Entries → Prop
  | .close _ => True
  | .broken _ => False
  | .keyOnly _ _ => False
  | .entry _ value _ tail => value.Intact ∧ tail.Intact

end

/-! ## Faults of a text -/

namespace Reader

variable {fuel limit : Nat} {c : Cursor} {fault : Fault}

theorem not_intact_scalar {lead : Lead} {start : Place} {r : Reading}
    {parsed : Except Fault (Scalar × Cursor)} (h : scalar lead start parsed = (r, .error fault)) :
    ¬ r.Intact := by
  cases parsed with
  | ok x =>
    obtain ⟨v, after⟩ := x
    cases h
  | error fault' =>
    cases h
    exact id

theorem not_intact_itemsFrom {is : Items}
    (hitems : ∀ {c is}, items fuel limit false c = (is, .error fault) → ¬ is.Intact)
    (h : itemsFrom fuel limit c = (is, .error fault)) : ¬ is.Intact := by
  rw [itemsFrom] at h
  split at h
  · cases h
    exact fun hintact => hintact.2
  · rename_i head after _
    cases hi : items fuel limit false after with
    | mk tail out =>
      rw [hi] at h
      cases h
      exact fun hintact => hitems hi hintact.2

theorem not_intact_items {first : Bool} {is : Items}
    (hitems : ∀ {c is}, items fuel limit false c = (is, .error fault) → ¬ is.Intact)
    (h : items (fuel + 1) limit first c = (is, .error fault)) : ¬ is.Intact := by
  rw [items.eq_def] at h
  dsimp only at h
  split at h
  · cases h
    exact id
  · cases h
  · exact not_intact_itemsFrom hitems h
  · split at h
    · cases h
      exact id
    · cases h
      exact id
    · exact not_intact_itemsFrom hitems h
  · cases h
    exact id

theorem not_intact_entriesFrom {es : Entries}
    (hentries : ∀ {c es}, entries all fuel limit false c = (es, .error fault) → ¬ es.Intact)
    (h : entriesFrom fuel limit c = (es, .error fault)) : ¬ es.Intact := by
  rw [entriesFrom] at h
  split at h
  · cases h
    exact id
  · dsimp only at h
    split at h
    · split at h
      · cases h
        exact fun hintact => hintact.2
      · rename_i after _
        cases he : entries all fuel limit false after.skipBlanks with
        | mk tail out =>
          rw [he] at h
          cases h
          exact fun hintact => hentries he hintact.2
    · cases h
      exact id
    · cases h
      exact id

theorem not_intact_entries {first : Bool} {es : Entries}
    (hentries : ∀ {c es}, entries all fuel limit false c = (es, .error fault) → ¬ es.Intact)
    (h : entries all (fuel + 1) limit first c = (es, .error fault)) : ¬ es.Intact := by
  rw [entries.eq_def] at h
  dsimp only at h
  split at h
  · cases h
    exact id
  · cases h
  · exact not_intact_entriesFrom hentries h
  · cases h
    exact id
  · split at h
    · exact not_intact_entriesFrom hentries h
    · cases h
      exact id
    · cases h
      exact id
    · cases h
      exact id
  · cases h
    exact id

theorem not_intact_value {r : Reading}
    (hitems : ∀ {limit c is}, items fuel limit true c = (is, .error fault) → ¬ is.Intact)
    (hentries : ∀ {limit c es},
      entries all fuel limit true c = (es, .error fault) → ¬ es.Intact)
    (h : value all (fuel + 1) limit c = (r, .error fault)) : ¬ r.Intact := by
  rw [value.eq_def] at h
  dsimp only at h
  split at h
  · cases h
    exact id
  · exact not_intact_scalar h
  · exact not_intact_scalar h
  · exact not_intact_scalar h
  · exact not_intact_scalar h
  · split at h
    · cases h
      exact id
    · rename_i tail _ _ limit
      cases hi : items fuel limit true ⟨tail, c.skipBlanks.place.after '['⟩ with
      | mk is out =>
        rw [hi] at h
        cases h
        exact hitems hi
  · split at h
    · cases h
      exact id
    · rename_i tail _ _ limit
      cases he : entries all fuel limit true ⟨tail, c.skipBlanks.place.after '\x7b'⟩ with
      | mk es out =>
        rw [he] at h
        cases h
        exact hentries he
  · split at h
    · exact not_intact_scalar h
    · cases h
      exact id

/-- **A fault that hides the rest of a text stands in the reading.** -/
theorem not_intact (fuel : Nat) :
    (∀ {limit c r}, value all fuel limit c = (r, .error fault) → ¬ r.Intact) ∧
    (∀ {limit first c is}, items fuel limit first c = (is, .error fault) → ¬ is.Intact) ∧
    (∀ {limit first c es}, entries all fuel limit first c = (es, .error fault) → ¬ es.Intact) := by
  induction fuel with
  | zero =>
    refine ⟨fun h => ?_, fun h => ?_, fun h => ?_⟩
    · rw [value] at h
      cases h
      exact id
    · rw [items] at h
      cases h
      exact id
    · rw [entries] at h
      cases h
      exact id
  | succ fuel ih =>
    obtain ⟨-, hitems, hentries⟩ := ih
    exact ⟨fun h => not_intact_value hitems hentries h, fun h => not_intact_items hitems h,
      fun h => not_intact_entries hentries h⟩

end Reader

/-! ## Decoders -/

variable {α : Type} {r : Reading} {decode : Reading → Decoded α}

theorem Reading.intact_of_asString {s : String} (h : r.asString = .ok s) : r.Intact := by
  rw [Reading.asString.eq_def] at h
  split at h
  · trivial
  · exact (Reading.mismatch_ok h).elim

theorem Reading.intact_of_asOption {a : Option α} (hdecode : ∀ {r a}, decode r = .ok a → r.Intact)
    (h : r.asOption decode = .ok a) : r.Intact := by
  rw [Reading.asOption.eq_def] at h
  split at h
  · trivial
  · cases h
  · obtain ⟨b, hb, -⟩ := map_ok_iff.mp h
    exact hdecode hb

mutual

theorem Reading.intact_of_asValue : ∀ (r : Reading) {v : Value}, r.asValue = .ok v → r.Intact
  | .scalar v _ _, _, _ => trivial
  | .array _ items, _, h => by
    rw [Reading.asValue] at h
    obtain ⟨vs, hvs, -⟩ := map_ok_iff.mp h
    exact items.intact_of_asValues hvs
  | .object _ entries, _, h => by
    rw [Reading.asValue] at h
    obtain ⟨ms, hms, -⟩ := map_ok_iff.mp h
    exact entries.intact_of_asMembers hms
  | .broken _ _ fault, _, h => by
    rw [Reading.asValue] at h
    cases h

theorem Items.intact_of_asValues : ∀ (items : Items) {index : Nat} {vs : List Value},
    items.asValues index = .ok vs → items.Intact
  | .close _, _, _, _ => trivial
  | .broken fault, _, _, h => by
    rw [Items.asValues] at h
    cases h
  | .item head tail, _, _, h => by
    rw [Items.asValues] at h
    split at h
    · cases h
    · rename_i v hv
      obtain ⟨vs, hvs, -⟩ := map_ok_iff.mp h
      exact ⟨head.intact_of_asValue (within_ok hv), tail.intact_of_asValues hvs⟩

theorem Entries.intact_of_asMembers : ∀ (entries : Entries) {ms ms' : Members},
    entries.asMembers ms = .ok ms' → entries.Intact
  | .close _, _, _, _ => trivial
  | .broken fault, _, _, h => by
    rw [Entries.asMembers] at h
    cases h
  | .keyOnly _ fault, _, _, h => by
    rw [Entries.asMembers] at h
    cases h
  | .entry key value _ tail, _, _, h => by
    rw [Entries.asMembers] at h
    split at h
    · cases h
    · rename_i v hv
      exact ⟨value.intact_of_asValue (within_ok hv), tail.intact_of_asMembers h⟩

end

theorem Items.intact_of_decode (hdecode : ∀ {r a}, decode r = .ok a → r.Intact) :
    ∀ (items : Items) {index : Nat} {as : List α}, items.decode decode index = .ok as →
      items.Intact
  | .close _, _, _, _ => trivial
  | .broken fault, _, _, h => by
    rw [Items.decode] at h
    cases h
  | .item head tail, _, _, h => by
    rw [Items.decode] at h
    split at h
    · cases h
    · rename_i a ha
      obtain ⟨as, has, -⟩ := map_ok_iff.mp h
      exact ⟨hdecode (within_ok ha), tail.intact_of_decode hdecode has⟩

theorem Reading.intact_of_asList (hdecode : ∀ {r a}, decode r = .ok a → r.Intact) {as : List α}
    (h : r.asList decode = .ok as) : r.Intact := by
  rw [Reading.asList.eq_def] at h
  split at h
  · exact Items.intact_of_decode hdecode _ h
  · cases h
  · exact (Reading.mismatch_ok h).elim

theorem Entries.intact_of_decode (hdecode : ∀ {r a}, decode r = .ok a → r.Intact) :
    ∀ (entries : Entries) {ms ms' : List (String × α)}, entries.decode decode ms = .ok ms' →
      entries.Intact
  | .close _, _, _, _ => trivial
  | .broken fault, _, _, h => by
    rw [Entries.decode] at h
    cases h
  | .keyOnly _ fault, _, _, h => by
    rw [Entries.decode] at h
    cases h
  | .entry key value _ tail, _, _, h => by
    rw [Entries.decode] at h
    split at h
    · cases h
    · rename_i a ha
      exact ⟨hdecode (within_ok ha), tail.intact_of_decode hdecode h⟩

theorem Reading.intact_of_asMap (hdecode : ∀ {r a}, decode r = .ok a → r.Intact)
    {ms : List (String × α)} (h : r.asMap decode = .ok ms) : r.Intact := by
  rw [Reading.asMap.eq_def] at h
  split at h
  · exact Entries.intact_of_decode hdecode _ h
  · cases h
  · exact (Reading.mismatch_ok h).elim

/-! ## Records that refuse unknown keys -/

section

variable {form : RecordForm α}

theorem Entries.intact_of_record (hclosed : form.closed = true)
    (hset : ∀ {a name r a'}, name ∈ form.names → form.set a name r = .ok a' → r.Intact) :
    ∀ (entries : Entries) {a : α} {seen : List String} {w : Written α},
      entries.record form a seen = .ok w → entries.Intact
  | .close stop, _, _, _, _ => trivial
  | .broken fault, _, _, _, h => by
    rw [Entries.record] at h
    cases h
  | .keyOnly key fault, _, _, _, h => by
    rw [Entries.record] at h
    split at h
    · cases h
    · split at h <;> cases h
  | .entry key value behind tail, _, _, _, h => by
    unfold Entries.record at h
    split at h
    · rename_i hname
      split at h
      · cases h
      · split at h
        · cases h
        · rename_i a' ha'
          exact ⟨hset (List.contains_iff_mem.mp hname) (within_ok ha'),
            tail.intact_of_record hclosed hset h⟩
    · cases h

theorem Items.intact_of_surplus {items : Items} {count : Nat} {stop : Mark}
    (h : items.surplus count = .ok stop) : items.Intact := by
  cases items with
  | close stop => trivial
  | broken fault =>
    rw [Items.surplus] at h
    split at h <;> cases h
  | item head tail =>
    rw [Items.surplus] at h
    split at h <;> cases h

theorem Items.intact_of_record
    (hset : ∀ {a name r a'}, name ∈ form.names → form.set a name r = .ok a' → r.Intact)
    {names : List String} (hnames : ∀ name ∈ names, name ∈ form.names) {items : Items} {a : α}
    {seen : List String} {index : Nat} {w : Written α}
    (h : items.record form a seen index names = .ok w) : items.Intact := by
  induction names generalizing items a seen index with
  | nil =>
    rw [Items.record] at h
    obtain ⟨stop, hstop, -⟩ := map_ok_iff.mp h
    exact Items.intact_of_surplus hstop
  | cons name names ih =>
    cases items with
    | close stop => trivial
    | broken fault =>
      rw [Items.record] at h
      cases h
    | item head tail =>
      rw [Items.record] at h
      split at h
      · cases h
      · rename_i a' ha'
        exact ⟨hset (hnames name List.mem_cons_self) (within_ok ha'),
          ih (fun n hn => hnames n (List.mem_cons_of_mem _ hn)) h⟩

/-- **A record is decoded from a reading without faults**, if it refuses unknown keys. -/
theorem Reading.intact_of_record (hclosed : form.closed = true)
    (hset : ∀ {a name r a'}, name ∈ form.names → form.set a name r = .ok a' → r.Intact)
    {initial : α} {w : Written α} (h : r.record form initial = .ok w) :
    r.Intact ∧ r.Bracketed := by
  rw [Reading.record.eq_def] at h
  split at h
  · exact ⟨Entries.intact_of_record hclosed hset _ h, trivial⟩
  · exact ⟨Items.intact_of_record hset (fun _ => id) h, trivial⟩
  · cases h
  · cases h
  · exact (Reading.mismatch_ok h).elim

end

end SchemaTree.Json
