import SchemaTree.Proofs.Json.Local

/-!
# What a value takes of a text

The value at the start of a text is the same whatever stands behind it.

* `Takes`: a reader takes characters, one at least, and what it returns depends on no others;
  a unit of fuel for each of them is enough.
* `value_takes`: **values are read so**; only one without brackets, such as a number, depends on
  the character behind.
-/

namespace SchemaTree.Json

/-- A reading that ends with a bracket. -/
def Reading.Bracketed : Reading → Prop
  | .array _ _ => True
  | .object _ _ => True
  | _ => False

namespace Reader

open Cursor

variable {α β : Type}

/-- A reader takes characters from a cursor on and returns `a` for them.  Other text may stand
behind them, starting with any character if `alone` holds, and else with the same one. -/
def Takes (read : Nat → Cursor → Outcome α) (alone : Prop) (c : Cursor) (a : α)
    (after : Cursor) : Prop :=
  ∃ taken, taken ≠ [] ∧ c.rest = taken ++ after.rest ∧ ∀ fuel (rest : List Char),
    taken.length ≤ fuel → (alone ∨ rest.head? = after.rest.head?) →
      read fuel ⟨taken ++ rest, c.place⟩ = (a, .ok ⟨rest, after.place⟩)

/-! ## Blanks in front -/

/-- No blank comes next. -/
def Clear (c : Cursor) : Prop := ∀ d, c.rest.head? = some d → ¬ IsBlank d

theorem Clear.congr {c c' : Cursor} (h : Clear c) (hhead : c'.rest.head? = c.rest.head?) :
    Clear c' :=
  fun d hd => h d (hhead ▸ hd)

theorem clear_skipBlanks (c : Cursor) : Clear c.skipBlanks := by
  obtain ⟨cs, place⟩ := c
  rw [skipBlanks]
  induction cs generalizing place with
  | nil => exact fun d hd => by cases hd
  | cons d cs ih =>
    rw [skipBlanksFrom]
    split
    · exact ih (place.after d)
    · rename_i hd
      intro d' hd'
      cases hd'
      rwa [isBlank_iff] at hd

theorem Clear.skipBlanks_eq {c : Cursor} (h : Clear c) : c.skipBlanks = c := by
  obtain ⟨cs, place⟩ := c
  cases cs with
  | nil => rfl
  | cons d cs =>
    have hd : ¬ IsBlank d := h d rfl
    rw [← isBlank_iff] at hd
    rw [skipBlanks, skipBlanksFrom, if_neg hd]

theorem Takes.blanks {read : Nat → Cursor → Outcome α} {alone : Prop} {c after : Cursor} {a : α}
    (hread : ∀ fuel c, read (fuel + 1) c = read (fuel + 1) c.skipBlanks)
    (h : Takes read alone c.skipBlanks a after) : Takes read alone c a after := by
  obtain ⟨taken, hne, hc, htaken⟩ := h
  obtain ⟨blanks, hblanks, hskip⟩ := skipBlanks_local c
  refine ⟨blanks ++ taken, by simp [hne], by rw [hblanks, hc, List.append_assoc],
    fun fuel rest hfuel hnext => ?_⟩
  have hhead : (taken ++ rest).head? = c.skipBlanks.rest.head? := by
    obtain ⟨d, tail, rfl⟩ := List.exists_cons_of_ne_nil hne
    rw [hc]
    rfl
  rw [List.length_append] at hfuel
  have htakes := htaken fuel rest (by omega) hnext
  cases fuel with
  | zero => exact absurd (List.length_eq_zero_iff.mp (by omega)) hne
  | succ fuel => rw [List.append_assoc, hread, hskip _ hhead, htakes]

theorem Takes.cons {read read' : Nat → Cursor → Outcome α} {alone : Prop} {d : Char}
    {tail : List Char} {place : Place} {after : Cursor} {a : α}
    (hread : ∀ fuel tail, read (fuel + 1) ⟨d :: tail, place⟩ = read' fuel ⟨tail, place.after d⟩)
    (h : Takes read' alone ⟨tail, place.after d⟩ a after) :
    Takes read alone ⟨d :: tail, place⟩ a after := by
  obtain ⟨taken, hne, htail, htaken⟩ := h
  refine ⟨d :: taken, List.cons_ne_nil d taken, congrArg _ htail, fun fuel rest hfuel hnext => ?_⟩
  rw [List.length_cons] at hfuel
  cases fuel with
  | zero => omega
  | succ fuel =>
    rw [List.cons_append, hread]
    exact htaken fuel rest (by omega) hnext

theorem Takes.map {read : Nat → Cursor → Outcome α} {alone : Prop} {c after : Cursor} {a : α}
    (h : Takes read alone c a after) (f : α → β) :
    Takes (fun fuel c => (f (read fuel c).1, (read fuel c).2)) alone c (f a) after := by
  obtain ⟨taken, hne, hc, htaken⟩ := h
  refine ⟨taken, hne, hc, fun fuel rest hfuel hnext => ?_⟩
  simp only [htaken fuel rest hfuel hnext]

theorem Takes.comma {read read' : Nat → Cursor → Outcome α} {P : Char → Prop} {d : Char}
    {tail tail' : List Char} {place : Place} {after : Cursor} {a : α}
    (hread : ∀ fuel tail d tail', (⟨tail, place.after ','⟩ : Cursor).skipBlanks.rest = d :: tail' →
      P d → read (fuel + 1) ⟨',' :: tail, place⟩ =
        read' (fuel + 1) (⟨tail, place.after ','⟩ : Cursor).skipBlanks)
    (hrest : (⟨tail, place.after ','⟩ : Cursor).skipBlanks.rest = d :: tail') (hd : P d)
    (h : Takes read' True (⟨tail, place.after ','⟩ : Cursor).skipBlanks a after) :
    Takes read True ⟨',' :: tail, place⟩ a after := by
  obtain ⟨taken, hne, hc, htaken⟩ := h
  obtain ⟨blanks, htail, hskip⟩ := skipBlanks_local ⟨tail, place.after ','⟩
  refine ⟨',' :: (blanks ++ taken), List.cons_ne_nil _ _, ?_, fun fuel rest hfuel hnext => ?_⟩
  · rw [List.cons_append, List.append_assoc, ← hc, ← htail]
  · obtain ⟨d', taken, rfl⟩ := List.exists_cons_of_ne_nil hne
    obtain ⟨rfl, -⟩ := List.cons_eq_cons.mp (hrest.symm.trans hc)
    rw [List.length_cons, List.length_append] at hfuel
    have hskip' := hskip (d :: taken ++ rest) (by rw [hrest]; rfl)
    have htakes := htaken fuel rest (by omega) hnext
    cases fuel with
    | zero => omega
    | succ fuel =>
      rw [List.cons_append, List.append_assoc,
        hread fuel _ d (taken ++ rest) (congrArg Cursor.rest hskip') hd, hskip', htakes]

/-! ## Values without parts -/

theorem scalar_ok {lead : Lead} {start : Place} {parsed : Except Fault (Scalar × Cursor)}
    {r : Reading} {after : Cursor} (h : scalar lead start parsed = (r, .ok after)) :
    ∃ v, parsed = .ok (v, after) ∧ r = .scalar v (some start) (some after.place) := by
  cases parsed with
  | error fault => cases h
  | ok x =>
    obtain ⟨v, after'⟩ := x
    cases h
    exact ⟨v, rfl, rfl⟩

/-- The wanted members of an object are all of them. -/
abbrev all : String → Bool := fun _ => false

variable {fuel limit : Nat} {tail : List Char} {place : Place}

theorem value_skipBlanks (fuel limit : Nat) (c : Cursor) :
    value all (fuel + 1) limit c = value all (fuel + 1) limit c.skipBlanks := by
  rw [value, value, (clear_skipBlanks c).skipBlanks_eq]

theorem value_null : value all (fuel + 1) limit ⟨'n' :: tail, place⟩ =
    scalar .null place ((word (place.after 'n') "ull".toList tail).map ((.null, ·))) := rfl

theorem value_true : value all (fuel + 1) limit ⟨'t' :: tail, place⟩ =
    scalar .bool place ((word (place.after 't') "rue".toList tail).map ((.bool true, ·))) := rfl

theorem value_false : value all (fuel + 1) limit ⟨'f' :: tail, place⟩ =
    scalar .bool place ((word (place.after 'f') "alse".toList tail).map ((.bool false, ·))) := rfl

theorem value_string : value all (fuel + 1) limit ⟨'"' :: tail, place⟩ =
    scalar .string place
      ((string ⟨tail, place.after '"'⟩).map fun (s, after) => (.string s, after)) := rfl

theorem value_array : value all (fuel + 1) (limit + 1) ⟨'[' :: tail, place⟩ =
    ((.array (some place) (items fuel limit true ⟨tail, place.after '['⟩).1),
      (items fuel limit true ⟨tail, place.after '['⟩).2) := rfl

theorem value_object : value all (fuel + 1) (limit + 1) ⟨'\x7b' :: tail, place⟩ =
    ((.object (some place) (entries all fuel limit true ⟨tail, place.after '\x7b'⟩).1),
      (entries all fuel limit true ⟨tail, place.after '\x7b'⟩).2) := rfl

theorem value_number {d : Char} (hd : (d.isDigit || d = '-') = true) :
    value all (fuel + 1) limit ⟨d :: tail, place⟩ =
      scalar .number place
        ((number ⟨d :: tail, place⟩).map fun (n, after) => (.number n, after)) := by
  have hclear : Clear ⟨d :: tail, place⟩ := by
    intro d' hd'
    cases hd'
    rintro (rfl | rfl | rfl | rfl) <;> exact absurd hd (by decide)
  rw [value, hclear.skipBlanks_eq]
  dsimp only
  split
  · rename_i heq
    cases heq
  all_goals
    rename_i heq
    cases heq
  case h_8 => rw [if_pos hd]
  all_goals exact absurd hd (by decide)

theorem takes_scalar {d : Char} {lead : Lead} {parse : Cursor → Except Fault (Scalar × Cursor)}
    {r : Reading} {after : Cursor} (hparse : Local parse)
    (heq : ∀ fuel tail, value all (fuel + 1) limit ⟨d :: tail, place⟩ =
      scalar lead place (parse ⟨tail, place.after d⟩))
    (h : value all (fuel + 1) limit ⟨d :: tail, place⟩ = (r, .ok after)) :
    Takes (fun fuel => value all fuel limit) r.Bracketed ⟨d :: tail, place⟩ r after := by
  rw [heq] at h
  obtain ⟨v, hv, rfl⟩ := scalar_ok h
  obtain ⟨taken, htail, htaken⟩ := hparse _ v after hv
  refine ⟨d :: taken, List.cons_ne_nil d taken, congrArg _ htail, fun fuel rest hfuel hnext => ?_⟩
  have hhead : rest.head? = after.rest.head? := hnext.resolve_left id
  cases fuel with
  | zero => cases hfuel
  | succ fuel =>
    dsimp only
    rw [List.cons_append, heq, htaken rest hhead]
    rfl

theorem takes_number {d : Char} {r : Reading} {after : Cursor}
    (hd : (d.isDigit || d = '-') = true)
    (h : value all (fuel + 1) limit ⟨d :: tail, place⟩ = (r, .ok after)) :
    Takes (fun fuel => value all fuel limit) r.Bracketed ⟨d :: tail, place⟩ r after := by
  rw [value_number hd] at h
  obtain ⟨v, hv, rfl⟩ := scalar_ok h
  cases hnumber : number ⟨d :: tail, place⟩ with
  | error fault =>
    rw [hnumber] at hv
    cases hv
  | ok x =>
    obtain ⟨n, after'⟩ := x
    rw [hnumber] at hv
    cases hv
    obtain ⟨taken, hc, htaken⟩ := local_number _ n after hnumber
    cases taken with
    | nil =>
      have hlt := number_lt hnumber
      rw [hc, List.nil_append] at hlt
      exact absurd hlt (Nat.lt_irrefl _)
    | cons d' taken =>
      obtain ⟨rfl, -⟩ := List.cons_eq_cons.mp hc
      refine ⟨d :: taken, List.cons_ne_nil d taken, hc, fun fuel rest hfuel hnext => ?_⟩
      have hhead : rest.head? = after.rest.head? := hnext.resolve_left id
      cases fuel with
      | zero => cases hfuel
      | succ fuel =>
        have htakes := htaken rest hhead
        dsimp only at htakes ⊢
        rw [List.cons_append] at htakes ⊢
        rw [value_number hd, htakes]
        rfl

/-! ## Items -/

/-- Reads an item and those behind it. -/
def itemsFrom (fuel limit : Nat) (c : Cursor) : Outcome Items :=
  match value all fuel limit c with
  | (head, .error fault) => (.item head (.broken fault), .error fault)
  | (head, .ok after) =>
    let (tail, after) := items fuel limit false after
    (.item head tail, after)

theorem items_skipBlanks (fuel limit : Nat) (first : Bool) (c : Cursor) :
    items (fuel + 1) limit first c = items (fuel + 1) limit first c.skipBlanks := by
  rw [items.eq_def, items.eq_def]
  dsimp only
  rw [(clear_skipBlanks c).skipBlanks_eq]

theorem items_close {first : Bool} : items (fuel + 1) limit first ⟨']' :: tail, place⟩ =
    (.close (some (place.after ']')), .ok ⟨tail, place.after ']'⟩) := by
  cases first <;> rfl

theorem items_first {c : Cursor} {d : Char} (hclear : Clear c) (hc : c.rest = d :: tail)
    (hd : d ≠ ']') : items (fuel + 1) limit true c = itemsFrom fuel limit c := by
  rw [items.eq_def]
  dsimp only
  rw [hclear.skipBlanks_eq]
  split
  · rename_i heq
    cases hc.symm.trans heq
  · rename_i heq
    cases hc.symm.trans heq
    exact absurd rfl hd
  · rfl
  · contradiction
  · contradiction

theorem items_comma {d : Char} {tail' : List Char}
    (hrest : (⟨tail, place.after ','⟩ : Cursor).skipBlanks.rest = d :: tail') (hd : d ≠ ']') :
    items (fuel + 1) limit false ⟨',' :: tail, place⟩ =
      items (fuel + 1) limit true (⟨tail, place.after ','⟩ : Cursor).skipBlanks := by
  have hclear : Clear ⟨',' :: tail, place⟩ := by
    intro d hd
    cases hd
    rintro (h | h | h | h) <;> cases h
  rw [items_first (clear_skipBlanks _) hrest hd, items.eq_def]
  simp only [hclear.skipBlanks_eq]
  split
  · rename_i heq
    cases hrest.symm.trans heq
  · rename_i heq
    cases hrest.symm.trans heq
    exact absurd rfl hd
  · rfl

theorem items_ok {first : Bool} {c after : Cursor} {is : Items} (hclear : Clear c)
    (h : items (fuel + 1) limit first c = (is, .ok after)) :
    (∃ tail, c.rest = ']' :: tail ∧ is = .close (some (c.place.after ']')) ∧
      after = ⟨tail, c.place.after ']'⟩) ∨
    (first = true ∧ (∃ d tail, c.rest = d :: tail ∧ d ≠ ']') ∧
      itemsFrom fuel limit c = (is, .ok after)) ∨
    (first = false ∧ ∃ tail, c.rest = ',' :: tail ∧
      ∃ d tail', (⟨tail, c.place.after ','⟩ : Cursor).skipBlanks.rest = d :: tail' ∧ d ≠ ']') := by
  rw [items.eq_def] at h
  dsimp only at h
  rw [hclear.skipBlanks_eq] at h
  split at h
  · cases h
  · rename_i tail hc
    cases h
    exact Or.inl ⟨tail, hc, rfl, rfl⟩
  · rename_i hend hbracket
    refine Or.inr (Or.inl ⟨rfl, ?_, h⟩)
    cases hc : c.rest with
    | nil => exact (hend hc).elim
    | cons d tail => exact ⟨d, tail, rfl, fun hd => hbracket tail (hd ▸ hc)⟩
  · rename_i tail hc
    refine Or.inr (Or.inr ⟨rfl, tail, hc, ?_⟩)
    split at h
    · cases h
    · cases h
    · rename_i hend hbracket
      cases hc : (⟨tail, c.place.after ','⟩ : Cursor).skipBlanks.rest with
      | nil => exact (hend hc).elim
      | cons d tail' => exact ⟨d, tail', rfl, fun hd => hbracket tail' (hd ▸ hc)⟩
  · cases h

theorem takes_itemsFrom {c after : Cursor} {is : Items}
    (hvalue : ∀ {c r after}, value all fuel limit c = (r, .ok after) →
      Takes (fun fuel => value all fuel limit) r.Bracketed c r after)
    (hitems : ∀ {c is after}, items fuel limit false c = (is, .ok after) →
      Takes (fun fuel => items fuel limit false) True c is after)
    (h : itemsFrom fuel limit c = (is, .ok after)) :
    Takes (fun fuel => itemsFrom (fuel - 1) limit) True c is after := by
  rw [itemsFrom] at h
  split at h
  · cases h
  · rename_i head middle hhead
    cases htail : items fuel limit false middle with
    | mk tail out =>
      rw [htail] at h
      cases h
      obtain ⟨taken, hne, hc, htaken⟩ := hvalue hhead
      obtain ⟨taken', hne', hmiddle, htaken'⟩ := hitems htail
      refine ⟨taken ++ taken', by simp [hne], by rw [hc, hmiddle, List.append_assoc],
        fun fuel rest hfuel _ => ?_⟩
      have hpos : 0 < taken.length := List.length_pos_iff.mpr hne
      have hpos' : 0 < taken'.length := List.length_pos_iff.mpr hne'
      have hnext : (taken' ++ rest).head? = middle.rest.head? := by
        obtain ⟨d, more, rfl⟩ := List.exists_cons_of_ne_nil hne'
        rw [hmiddle]
        rfl
      rw [List.length_append] at hfuel
      have hfirst := htaken (fuel - 1) (taken' ++ rest) (by omega) (Or.inr hnext)
      have hbehind := htaken' (fuel - 1) rest (by omega) (Or.inl trivial)
      dsimp only at hfirst hbehind ⊢
      rw [List.append_assoc, itemsFrom, hfirst]
      dsimp only
      rw [hbehind]

theorem takes_items_true {c after : Cursor} {is : Items}
    (hvalue : ∀ {c r after}, value all fuel limit c = (r, .ok after) →
      Takes (fun fuel => value all fuel limit) r.Bracketed c r after)
    (hitems : ∀ {c is after}, items fuel limit false c = (is, .ok after) →
      Takes (fun fuel => items fuel limit false) True c is after)
    (h : items (fuel + 1) limit true c = (is, .ok after)) :
    Takes (fun fuel => items fuel limit true) True c is after := by
  refine Takes.blanks (fun fuel c => items_skipBlanks fuel limit true c) ?_
  rw [items_skipBlanks] at h
  have hclear := clear_skipBlanks c
  generalize c.skipBlanks = c at h hclear ⊢
  rcases items_ok hclear h with ⟨tail, hc, rfl, rfl⟩ | ⟨-, ⟨d, tail, hc, hd⟩, hfrom⟩ | ⟨hfirst, -⟩
  · refine ⟨[']'], List.cons_ne_nil _ _, hc, fun fuel rest hfuel _ => ?_⟩
    cases fuel with
    | zero => cases hfuel
    | succ fuel => exact items_close
  · obtain ⟨taken, hne, hc', htaken⟩ := takes_itemsFrom hvalue hitems hfrom
    obtain ⟨d', taken, rfl⟩ := List.exists_cons_of_ne_nil hne
    obtain ⟨rfl, -⟩ := List.cons_eq_cons.mp (hc.symm.trans hc')
    refine ⟨d :: taken, hne, hc', fun fuel rest hfuel hnext => ?_⟩
    cases fuel with
    | zero => cases hfuel
    | succ fuel =>
      have hclear' : Clear ⟨d :: taken ++ rest, c.place⟩ := hclear.congr (by rw [hc]; rfl)
      exact (items_first hclear' rfl hd).trans (htaken (fuel + 1) rest hfuel hnext)
  · cases hfirst

theorem takes_items {first : Bool} {c after : Cursor} {is : Items}
    (hvalue : ∀ {c r after}, value all fuel limit c = (r, .ok after) →
      Takes (fun fuel => value all fuel limit) r.Bracketed c r after)
    (hitems : ∀ {c is after}, items fuel limit false c = (is, .ok after) →
      Takes (fun fuel => items fuel limit false) True c is after)
    (h : items (fuel + 1) limit first c = (is, .ok after)) :
    Takes (fun fuel => items fuel limit first) True c is after := by
  cases first with
  | true => exact takes_items_true hvalue hitems h
  | false =>
    refine Takes.blanks (fun fuel c => items_skipBlanks fuel limit false c) ?_
    rw [items_skipBlanks] at h
    have hclear := clear_skipBlanks c
    generalize c.skipBlanks = c at h hclear ⊢
    obtain ⟨cs, place⟩ := c
    rcases items_ok hclear h with ⟨tail, hc, rfl, rfl⟩ | ⟨hfirst, -⟩ |
      ⟨-, tail, hc, d, tail', hrest, hd⟩
    · refine ⟨[']'], List.cons_ne_nil _ _, hc, fun fuel rest hfuel _ => ?_⟩
      cases fuel with
      | zero => cases hfuel
      | succ fuel => exact items_close
    · cases hfirst
    · obtain rfl : cs = ',' :: tail := hc
      rw [items_comma hrest hd] at h
      exact Takes.comma (P := (· ≠ ']')) (fun fuel tail d tail' hrest hd => items_comma hrest hd)
        hrest hd (takes_items_true hvalue hitems h)

/-! ## Entries -/

/-- Reads an entry from behind the quote of its key, and those behind it. -/
def entriesFrom (fuel limit : Nat) (c : Cursor) : Outcome Entries :=
  match string c with
  | .error fault => (.broken fault, .error fault)
  | .ok (name, c) =>
    let stop := some c.place
    let c := c.skipBlanks
    match c.rest with
    | ':' :: rest =>
      let key : Key := ⟨name, stop, some c.place⟩
      let (v, after) := value all fuel limit ⟨rest, c.place.after ':'⟩
      match after with
      | .error fault => (.entry key v none (.broken fault), .error fault)
      | .ok after =>
        let after := after.skipBlanks
        let (tail, rest) := entries all fuel limit false after
        (.entry key v (some after.place) tail, rest)
    | [] =>
      let fault := c.complain .endInObject
      (.keyOnly ⟨name, stop, some c.place⟩ fault, .error fault)
    | d :: _ =>
      let fault := c.complain .colonExpected
      let mark := if d = '\x7d' then c.place.after d else c.place
      (.keyOnly ⟨name, stop, some mark⟩ fault, .error fault)

theorem entries_skipBlanks (fuel limit : Nat) (first : Bool) (c : Cursor) :
    entries all (fuel + 1) limit first c = entries all (fuel + 1) limit first c.skipBlanks := by
  rw [entries.eq_def, entries.eq_def]
  dsimp only
  rw [(clear_skipBlanks c).skipBlanks_eq]

theorem entries_close {first : Bool} : entries all (fuel + 1) limit first ⟨'\x7d' :: tail, place⟩ =
    (.close (some (place.after '\x7d')), .ok ⟨tail, place.after '\x7d'⟩) := by
  cases first <;> rfl

theorem entries_first : entries all (fuel + 1) limit true ⟨'"' :: tail, place⟩ =
    entriesFrom fuel limit ⟨tail, place.after '"'⟩ := rfl

theorem entries_comma {tail' : List Char}
    (hrest : (⟨tail, place.after ','⟩ : Cursor).skipBlanks.rest = '"' :: tail') :
    entries all (fuel + 1) limit false ⟨',' :: tail, place⟩ =
      entries all (fuel + 1) limit true (⟨tail, place.after ','⟩ : Cursor).skipBlanks := by
  have hclear : Clear ⟨',' :: tail, place⟩ := by
    intro d hd
    cases hd
    rintro (h | h | h | h) <;> cases h
  rw [entries.eq_def]
  simp only [hclear.skipBlanks_eq]
  generalize hc : (⟨tail, place.after ','⟩ : Cursor).skipBlanks = c at hrest
  obtain ⟨cs, place'⟩ := c
  obtain rfl : cs = '"' :: tail' := hrest
  rw [entries_first]
  rfl

theorem entries_ok {first : Bool} {c after : Cursor} {es : Entries} (hclear : Clear c)
    (h : entries all (fuel + 1) limit first c = (es, .ok after)) :
    (∃ tail, c.rest = '\x7d' :: tail ∧ es = .close (some (c.place.after '\x7d')) ∧
      after = ⟨tail, c.place.after '\x7d'⟩) ∨
    (first = true ∧ ∃ tail, c.rest = '"' :: tail) ∨
    (first = false ∧ ∃ tail, c.rest = ',' :: tail ∧
      ∃ tail', (⟨tail, c.place.after ','⟩ : Cursor).skipBlanks.rest = '"' :: tail') := by
  rw [entries.eq_def] at h
  dsimp only at h
  rw [hclear.skipBlanks_eq] at h
  split at h
  · cases h
  · rename_i tail hc
    cases h
    exact Or.inl ⟨tail, hc, rfl, rfl⟩
  · rename_i tail hc
    exact Or.inr (Or.inl ⟨rfl, tail, hc⟩)
  · cases h
  · rename_i tail hc
    refine Or.inr (Or.inr ⟨rfl, tail, hc, ?_⟩)
    split at h
    · rename_i tail' hrest
      exact ⟨tail', hrest⟩
    · cases h
    · cases h
    · cases h
  · cases h

theorem takes_entriesFrom {c after : Cursor} {es : Entries}
    (hvalue : ∀ {c r after}, value all fuel limit c = (r, .ok after) →
      Takes (fun fuel => value all fuel limit) r.Bracketed c r after)
    (hentries : ∀ {c es after}, entries all fuel limit false c = (es, .ok after) →
      Takes (fun fuel => entries all fuel limit false) True c es after)
    (h : entriesFrom fuel limit c = (es, .ok after)) :
    Takes (fun fuel => entriesFrom fuel limit) True c es after := by
  rw [entriesFrom] at h
  split at h
  · cases h
  · rename_i name behindKey hkey
    dsimp only at h
    split at h
    · rename_i tail hcolon
      cases hv : value all fuel limit ⟨tail, behindKey.skipBlanks.place.after ':'⟩ with
      | mk v out =>
        rw [hv] at h
        cases out with
        | error fault => cases h
        | ok behind =>
          dsimp only at h
          cases ht : entries all fuel limit false behind.skipBlanks with
          | mk more out' =>
            rw [ht] at h
            cases h
            -- The key, blanks, the colon, the value, blanks, and what follows.
            obtain ⟨key, hc, hstring⟩ := local_string _ name behindKey hkey
            obtain ⟨blanks, hblanks, hskip⟩ := skipBlanks_local behindKey
            obtain ⟨val, hne, hval, htakes⟩ := hvalue hv
            obtain ⟨blanks', hblanks', hskip'⟩ := skipBlanks_local behind
            obtain ⟨rem, hne', hrem, htakes'⟩ := hentries ht
            refine ⟨key ++ (blanks ++ ':' :: (val ++ (blanks' ++ rem))), by simp, ?_,
              fun fuel rest hfuel _ => ?_⟩
            · rw [hc, hblanks, hcolon]
              dsimp only at hval
              rw [hval, hblanks', hrem]
              simp
            · have hlater : (rem ++ rest).head? = behind.skipBlanks.rest.head? := by
                obtain ⟨d, more, rfl⟩ := List.exists_cons_of_ne_nil hne'
                rw [hrem]
                rfl
              have hbehind : (blanks' ++ (rem ++ rest)).head? = behind.rest.head? := by
                rw [hblanks']
                exact head?_append_congr blanks' hlater
              have hcolon' : (blanks ++ ':' :: (val ++ (blanks' ++ (rem ++ rest)))).head? =
                  behindKey.rest.head? := by
                rw [hblanks, hcolon]
                exact head?_append_congr blanks rfl
              simp only [List.length_append, List.length_cons] at hfuel
              have hreadKey := hstring _ hcolon'
              have hreadBlanks := hskip (':' :: (val ++ (blanks' ++ (rem ++ rest))))
                (by rw [hcolon]; rfl)
              have hreadValue := htakes fuel (blanks' ++ (rem ++ rest)) (by omega)
                (Or.inr hbehind)
              have hreadBlanks' := hskip' (rem ++ rest) hlater
              have hreadRest := htakes' fuel rest (by omega) (Or.inl trivial)
              dsimp only at hreadValue hreadRest
              simp only [List.append_assoc, List.cons_append, entriesFrom, hreadKey, hreadBlanks,
                hreadValue, hreadBlanks', hreadRest]
    · cases h
    · cases h

theorem takes_entries_true {c after : Cursor} {es : Entries}
    (hvalue : ∀ {c r after}, value all fuel limit c = (r, .ok after) →
      Takes (fun fuel => value all fuel limit) r.Bracketed c r after)
    (hentries : ∀ {c es after}, entries all fuel limit false c = (es, .ok after) →
      Takes (fun fuel => entries all fuel limit false) True c es after)
    (h : entries all (fuel + 1) limit true c = (es, .ok after)) :
    Takes (fun fuel => entries all fuel limit true) True c es after := by
  refine Takes.blanks (fun fuel c => entries_skipBlanks fuel limit true c) ?_
  rw [entries_skipBlanks] at h
  have hclear := clear_skipBlanks c
  generalize c.skipBlanks = c at h hclear ⊢
  obtain ⟨cs, place⟩ := c
  rcases entries_ok hclear h with ⟨tail, hc, rfl, rfl⟩ | ⟨-, tail, hc⟩ | ⟨hfirst, -⟩
  · refine ⟨['\x7d'], List.cons_ne_nil _ _, hc, fun fuel rest hfuel _ => ?_⟩
    cases fuel with
    | zero => cases hfuel
    | succ fuel => exact entries_close
  · obtain rfl : cs = '"' :: tail := hc
    rw [entries_first] at h
    exact Takes.cons (fun fuel tail => entries_first) (takes_entriesFrom hvalue hentries h)
  · cases hfirst

theorem takes_entries {first : Bool} {c after : Cursor} {es : Entries}
    (hvalue : ∀ {c r after}, value all fuel limit c = (r, .ok after) →
      Takes (fun fuel => value all fuel limit) r.Bracketed c r after)
    (hentries : ∀ {c es after}, entries all fuel limit false c = (es, .ok after) →
      Takes (fun fuel => entries all fuel limit false) True c es after)
    (h : entries all (fuel + 1) limit first c = (es, .ok after)) :
    Takes (fun fuel => entries all fuel limit first) True c es after := by
  cases first with
  | true => exact takes_entries_true hvalue hentries h
  | false =>
    refine Takes.blanks (fun fuel c => entries_skipBlanks fuel limit false c) ?_
    rw [entries_skipBlanks] at h
    have hclear := clear_skipBlanks c
    generalize c.skipBlanks = c at h hclear ⊢
    obtain ⟨cs, place⟩ := c
    rcases entries_ok hclear h with ⟨tail, hc, rfl, rfl⟩ | ⟨hfirst, -⟩ |
      ⟨-, tail, hc, tail', hrest⟩
    · refine ⟨['\x7d'], List.cons_ne_nil _ _, hc, fun fuel rest hfuel _ => ?_⟩
      cases fuel with
      | zero => cases hfuel
      | succ fuel => exact entries_close
    · cases hfirst
    · obtain rfl : cs = ',' :: tail := hc
      rw [entries_comma hrest] at h
      refine Takes.comma (P := (· = '"')) (fun fuel tail d tail' hrest hd => ?_) hrest rfl
        (takes_entries_true hvalue hentries h)
      subst hd
      exact entries_comma hrest

/-! ## Values -/

theorem takes_value {c after : Cursor} {r : Reading}
    (hitems : ∀ {limit c is after}, items fuel limit true c = (is, .ok after) →
      Takes (fun fuel => items fuel limit true) True c is after)
    (hentries : ∀ {limit c es after}, entries all fuel limit true c = (es, .ok after) →
      Takes (fun fuel => entries all fuel limit true) True c es after)
    (h : value all (fuel + 1) limit c = (r, .ok after)) :
    Takes (fun fuel => value all fuel limit) r.Bracketed c r after := by
  refine Takes.blanks (fun fuel c => value_skipBlanks fuel limit c) ?_
  rw [value_skipBlanks] at h
  have hclear := clear_skipBlanks c
  generalize c.skipBlanks = c at h hclear ⊢
  obtain ⟨cs, place⟩ := c
  have hcases := h
  rw [value.eq_def] at hcases
  simp only [hclear.skipBlanks_eq] at hcases
  split at hcases
  · cases hcases
  · exact takes_scalar (local_word _ _) (fun fuel tail => value_null) h
  · exact takes_scalar (local_word _ _) (fun fuel tail => value_true) h
  · exact takes_scalar (local_word _ _) (fun fuel tail => value_false) h
  · exact takes_scalar (local_string.map _) (fun fuel tail => value_string) h
  · cases limit with
    | zero => cases hcases
    | succ limit =>
      rw [value_array] at h
      cases hi : items fuel limit true _ with
      | mk is out =>
        rw [hi] at h
        cases h
        exact Takes.cons (fun fuel tail => value_array) ((hitems hi).map _)
  · cases limit with
    | zero => cases hcases
    | succ limit =>
      rw [value_object] at h
      cases he : entries all fuel limit true _ with
      | mk es out =>
        rw [he] at h
        cases h
        exact Takes.cons (fun fuel tail => value_object) ((hentries he).map _)
  · split at hcases
    · rename_i hd
      exact takes_number hd h
    · cases hcases

/-- **What a value takes**: a value with brackets is read in the same way whatever stands behind it,
any other one if the character behind it stays. -/
theorem value_takes (fuel : Nat) :
    (∀ {limit c r after}, value all fuel limit c = (r, .ok after) →
      Takes (fun fuel => value all fuel limit) r.Bracketed c r after) ∧
    (∀ {limit first c is after}, items fuel limit first c = (is, .ok after) →
      Takes (fun fuel => items fuel limit first) True c is after) ∧
    (∀ {limit first c es after}, entries all fuel limit first c = (es, .ok after) →
      Takes (fun fuel => entries all fuel limit first) True c es after) := by
  induction fuel with
  | zero =>
    refine ⟨fun h => ?_, fun h => ?_, fun h => ?_⟩
    · rw [value] at h
      cases h
    · rw [items] at h
      cases h
    · rw [entries] at h
      cases h
  | succ fuel ih =>
    obtain ⟨hvalue, hitems, hentries⟩ := ih
    exact ⟨fun h => takes_value hitems hentries h, fun h => takes_items hvalue hitems h,
      fun h => takes_entries hvalue hentries h⟩

end Reader

end SchemaTree.Json
