import SchemaTree.Proofs.Catalog.Written
import SchemaTree.Proofs.Json.Prefix
import SchemaTree.Proofs.Number.Magnitude

/-!
# Numbers of readings

All numbers that a text writes are integers of 64 bits or finite doubles, and a value in memory
holds no others.  So a double that is decoded is finite.

* `Reading.Regular`, `Value.Regular`: every number inside is regular.
* `Reading.regular_ofText`: **the reading of a text is regular.**
* `Reading.regular_ofValue`, `Reading.Regular.unplaced`: so is the reading of a regular value, and a
  regular reading without its places.
* `Reading.Regular.asDouble`: **a double that is decoded from a regular reading is finite.**
-/

namespace SchemaTree.Json

mutual

/-- All numbers in a value are regular. -/
def Value.Regular : Value → Prop
  | .null => True
  | .bool _ => True
  | .number n => n.Regular
  | .string _ => True
  | .array items => Value.AllRegular items
  | .object members => Value.MembersRegular members

def Value.AllRegular : List Value → Prop
  | [] => True
  | v :: vs => v.Regular ∧ Value.AllRegular vs

def Value.MembersRegular : Members → Prop
  | [] => True
  | (_, v) :: ms => v.Regular ∧ Value.MembersRegular ms

end

mutual

/-- All numbers in a reading are regular. -/
def Reading.Regular : Reading → Prop
  | .scalar v _ _ => v.toValue.Regular
  | .array _ items => items.Regular
  | .object _ entries => entries.Regular
  | .broken _ _ _ => True

def Items.Regular : Items → Prop
  | .close _ => True
  | .broken _ => True
  | .item head tail => head.Regular ∧ tail.Regular

def Entries.Regular : Entries → Prop
  | .close _ => True
  | .broken _ => True
  | .keyOnly _ _ => True
  | .entry _ value _ tail => value.Regular ∧ tail.Regular

end

/-! ## Readings of values, and without places -/

mutual

theorem Reading.regular_ofValue : ∀ {v : Value}, v.Regular → (Reading.ofValue v).Regular
  | .null, _ => trivial
  | .bool _, _ => trivial
  | .number _, h => h
  | .string _, _ => trivial
  | .array _, h => Items.regular_ofValues h
  | .object _, h => Entries.regular_ofMembers h

theorem Items.regular_ofValues : ∀ {vs : List Value}, Value.AllRegular vs →
    (Items.ofValues vs).Regular
  | [], _ => trivial
  | _ :: _, h => ⟨Reading.regular_ofValue h.1, Items.regular_ofValues h.2⟩

theorem Entries.regular_ofMembers : ∀ {ms : Members}, Value.MembersRegular ms →
    (Entries.ofMembers ms).Regular
  | [], _ => trivial
  | (_, _) :: _, h => ⟨Reading.regular_ofValue h.1, Entries.regular_ofMembers h.2⟩

end

mutual

theorem Reading.Regular.unplaced : ∀ {r : Reading}, r.Regular → r.unplaced.Regular
  | .scalar _ _ _, h => h
  | .array _ _, h => Items.Regular.unplaced h
  | .object _ _, h => Entries.Regular.unplaced h
  | .broken _ _ _, _ => trivial

theorem Items.Regular.unplaced : ∀ {is : Items}, is.Regular → is.unplaced.Regular
  | .close _, _ => trivial
  | .broken _, _ => trivial
  | .item _ _, h => ⟨Reading.Regular.unplaced h.1, Items.Regular.unplaced h.2⟩

theorem Entries.Regular.unplaced : ∀ {es : Entries}, es.Regular → es.unplaced.Regular
  | .close _, _ => trivial
  | .broken _, _ => trivial
  | .keyOnly _ _, _ => trivial
  | .entry _ _ _ _, h => ⟨Reading.Regular.unplaced h.1, Entries.Regular.unplaced h.2⟩

end

/-! ## Parts -/

theorem Items.Regular.of_mem : ∀ {is : Items}, is.Regular → ∀ p ∈ is.toList, p.Regular
  | .close _, _, _, hp => absurd hp List.not_mem_nil
  | .broken _, _, _, hp => absurd hp List.not_mem_nil
  | .item _ _, h, p, hp => by
    rcases List.mem_cons.mp hp with rfl | hp
    · exact h.1
    · exact Items.Regular.of_mem h.2 p hp

theorem Entries.Regular.of_mem : ∀ {es : Entries}, es.Regular → ∀ w ∈ es.toList, w.2.Regular
  | .close _, _, _, hw => absurd hw List.not_mem_nil
  | .broken _, _, _, hw => absurd hw List.not_mem_nil
  | .keyOnly _ _, _, _, hw => absurd hw List.not_mem_nil
  | .entry _ _ _ _, h, w, hw => by
    rcases List.mem_cons.mp hw with rfl | hw
    · exact h.1
    · exact Entries.Regular.of_mem h.2 w hw

theorem Reading.Regular.of_mem_parts {r p : Reading} (h : r.Regular) (hp : p ∈ r.parts) :
    p.Regular := by
  cases r with
  | scalar v start stop => exact absurd hp List.not_mem_nil
  | broken lead start fault => exact absurd hp List.not_mem_nil
  | array start is => exact Items.Regular.of_mem h p hp
  | object start es =>
    obtain ⟨w, hw, rfl⟩ := List.mem_map.mp hp
    exact Entries.Regular.of_mem h w hw

theorem Reading.Regular.of_mem_members {r : Reading} {w : String × Reading} (h : r.Regular)
    (hw : w ∈ r.members) : w.2.Regular := by
  cases r with
  | object start es => exact Entries.Regular.of_mem h w hw
  | _ => exact absurd hw List.not_mem_nil

/-! ## Readings of texts -/

namespace Reader

variable {fuel limit : Nat} {c : Cursor}

theorem regular_scalar {β : Type} {g : β → Scalar × Cursor} {parsed : Except Fault β}
    {lead : Lead} {start : Place} {r : Reading} {out : Except Fault Cursor}
    (h : scalar lead start (parsed.map g) = (r, out))
    (hg : ∀ b, parsed = .ok b → (g b).1.toValue.Regular) : r.Regular := by
  cases parsed with
  | error fault =>
    cases h
    trivial
  | ok b =>
    cases h
    exact hg b rfl

/-- **The numbers of a text are regular.** -/
theorem regular_number {n : Number} {after : Cursor} (h : number c = .ok (n, after)) :
    n.Regular := by
  obtain ⟨⟨l, reach, behind⟩, -, h⟩ := bind_ok_iff.mp h
  dsimp only at h
  split at h
  · rename_i m hm
    cases h
    exact Number.regular_ofLiteral hm
  · cases h

theorem regular_itemsFrom {is : Items} {out : Except Fault Cursor}
    (hvalue : ∀ {c r out}, value all fuel limit c = (r, out) → r.Regular)
    (hitems : ∀ {c is out}, items fuel limit false c = (is, out) → is.Regular)
    (h : itemsFrom fuel limit c = (is, out)) : is.Regular := by
  rw [itemsFrom] at h
  split at h
  · rename_i head fault hhead
    cases h
    exact ⟨hvalue hhead, trivial⟩
  · rename_i head after hhead
    cases h
    exact ⟨hvalue hhead, hitems rfl⟩

theorem regular_items {first : Bool} {is : Items} {out : Except Fault Cursor}
    (hvalue : ∀ {c r out}, value all fuel limit c = (r, out) → r.Regular)
    (hitems : ∀ {c is out}, items fuel limit false c = (is, out) → is.Regular)
    (h : items (fuel + 1) limit first c = (is, out)) : is.Regular := by
  rw [items.eq_def] at h
  dsimp only at h
  split at h
  · cases h
    trivial
  · cases h
    trivial
  · exact regular_itemsFrom hvalue hitems h
  · split at h
    · cases h
      trivial
    · cases h
      trivial
    · exact regular_itemsFrom hvalue hitems h
  · cases h
    trivial

theorem regular_entriesFrom {es : Entries} {out : Except Fault Cursor}
    (hvalue : ∀ {c r out}, value all fuel limit c = (r, out) → r.Regular)
    (hentries : ∀ {c es out}, entries all fuel limit false c = (es, out) → es.Regular)
    (h : entriesFrom fuel limit c = (es, out)) : es.Regular := by
  rw [entriesFrom] at h
  split at h
  · cases h
    trivial
  · dsimp only at h
    split at h
    · split at h
      · cases h
        exact ⟨hvalue rfl, trivial⟩
      · cases h
        exact ⟨hvalue rfl, hentries rfl⟩
    · cases h
      trivial
    · cases h
      trivial

theorem regular_entries {first : Bool} {es : Entries} {out : Except Fault Cursor}
    (hvalue : ∀ {c r out}, value all fuel limit c = (r, out) → r.Regular)
    (hentries : ∀ {c es out}, entries all fuel limit false c = (es, out) → es.Regular)
    (h : entries all (fuel + 1) limit first c = (es, out)) : es.Regular := by
  rw [entries.eq_def] at h
  dsimp only at h
  split at h
  · cases h
    trivial
  · cases h
    trivial
  · exact regular_entriesFrom hvalue hentries h
  · cases h
    trivial
  · split at h
    · exact regular_entriesFrom hvalue hentries h
    · cases h
      trivial
    · cases h
      trivial
    · cases h
      trivial
  · cases h
    trivial

theorem regular_value {r : Reading} {out : Except Fault Cursor}
    (hitems : ∀ {limit c is out}, items fuel limit true c = (is, out) → is.Regular)
    (hentries : ∀ {limit c es out}, entries all fuel limit true c = (es, out) → es.Regular)
    (h : value all (fuel + 1) limit c = (r, out)) : r.Regular := by
  rw [value.eq_def] at h
  dsimp only at h
  split at h
  · cases h
    trivial
  · exact regular_scalar h fun _ _ => trivial
  · exact regular_scalar h fun _ _ => trivial
  · exact regular_scalar h fun _ _ => trivial
  · exact regular_scalar h fun _ _ => trivial
  · split at h
    · cases h
      trivial
    · cases h
      exact hitems rfl
  · split at h
    · cases h
      trivial
    · cases h
      exact hentries rfl
  · split at h
    · exact regular_scalar h fun _ hn => regular_number hn
    · cases h
      trivial

/-- **Whatever is read is regular.** -/
theorem regular (fuel : Nat) :
    (∀ {limit c r out}, value all fuel limit c = (r, out) → r.Regular) ∧
    (∀ {limit first c is out}, items fuel limit first c = (is, out) → is.Regular) ∧
    (∀ {limit first c es out}, entries all fuel limit first c = (es, out) → es.Regular) := by
  induction fuel with
  | zero =>
    refine ⟨fun h => ?_, fun h => ?_, fun h => ?_⟩
    · rw [value] at h
      cases h
      trivial
    · rw [items] at h
      cases h
      trivial
    · rw [entries] at h
      cases h
      trivial
  | succ fuel ih =>
    obtain ⟨hvalue, hitems, hentries⟩ := ih
    exact ⟨fun h => regular_value hitems hentries h, fun h => regular_items hvalue hitems h,
      fun h => regular_entries hvalue hentries h⟩

end Reader

/-- **The reading of a text is regular.** -/
theorem Reading.regular_ofText (text : String) : (Reading.ofText text).1.Regular :=
  (Reader.regular _).1 rfl

/-- **A double that is decoded from a regular reading is finite.** -/
theorem Reading.Regular.asDouble {r : Reading} {d : Double} (h : r.Regular)
    (hd : r.asDouble = .ok d) : d.isFinite = true := by
  rw [Reading.asDouble.eq_def] at hd
  split at hd
  · cases hd
    exact Double.isFinite_ofInt h
  · cases hd
    exact h
  · exact (Reading.mismatch_ok hd).elim

end SchemaTree.Json
