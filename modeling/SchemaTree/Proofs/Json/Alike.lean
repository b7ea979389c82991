import SchemaTree.Proofs.Json.Distinct

/-!
# Texts and values are decoded alike

A document is decoded from its text, with the places of its parts, or from a value in memory, which
has none.  Places only show in refusals.

* `Alike`: results that are both refused or both the same, up to a relation.
* `PlaceFree`: decoders to which places make no difference; each way to build a decoder keeps this.
* `RepeatsNoKey`: texts in which no object repeats a key.
* `Reading.ofValue_of_asValue`: **a text that repeats no key is read like the value it denotes**, but
  for the places.
-/

namespace SchemaTree.Json

/-- Results of decoding that are both refused, or that are related. -/
inductive Alike {α β : Type} (same : α → β → Prop) : Decoded α → Decoded β → Prop
  | ok {a : α} {b : β} (h : same a b) : Alike same (.ok a) (.ok b)
  | error (r r' : Refusal) : Alike same (.error r) (.error r')

/-- A decoder to which places make no difference, except in refusals. -/
def PlaceFree {α : Type} (decode : Reading → Decoded α) : Prop :=
  ∀ r, Alike Eq (decode r) (decode r.unplaced)

section

variable {α β γ δ : Type} {same : α → β → Prop} {same' : γ → δ → Prop} {x : Decoded α}
  {y : Decoded β}

theorem Alike.within (step : Step) (h : Alike same x y) :
    Alike same (within step x) (within step y) := by
  cases h with
  | ok h => exact .ok h
  | error r r' => exact .error _ _

theorem Alike.map {f : α → γ} {g : β → δ} (h : Alike same x y)
    (hfg : ∀ a b, same a b → same' (f a) (g b)) : Alike same' (x.map f) (y.map g) := by
  cases h with
  | ok h => exact .ok (hfg _ _ h)
  | error r r' => exact .error r r'

theorem Alike.ok_or_error (h : Alike same x y) : (∃ a b, x = .ok a ∧ y = .ok b ∧ same a b) ∨
    ∃ r r', x = .error r ∧ y = .error r' := by
  cases h with
  | ok h => exact Or.inl ⟨_, _, rfl, rfl, h⟩
  | error r r' => exact Or.inr ⟨r, r', rfl, rfl⟩

theorem Alike.refl (x : Decoded α) : Alike Eq x x := by
  cases x with
  | ok a => exact .ok rfl
  | error r => exact .error r r

theorem Alike.map_eq {x y : Decoded α} (f : α → γ) (h : Alike Eq x y) :
    Alike Eq (x.map f) (y.map f) := h.map fun _ _ hab => congrArg f hab

theorem Reading.exists_mismatch (r : Reading) (expected : String) :
    ∃ refusal, (r.mismatch expected : Decoded α) = .error refusal := by
  unfold Reading.mismatch
  split <;> exact ⟨_, rfl⟩

theorem Alike.mismatch (r r' : Reading) (expected : String) :
    Alike same (r.mismatch expected) (r'.mismatch expected) := by
  obtain ⟨refusal, hr⟩ := r.exists_mismatch (α := α) expected
  obtain ⟨refusal', hr'⟩ := r'.exists_mismatch (α := β) expected
  rw [hr, hr']
  exact .error refusal refusal'

end

/-! ## Decoders -/

variable {α : Type} {decode : Reading → Decoded α}

theorem placeFree_asString : PlaceFree Reading.asString := by
  intro r
  cases r with
  | scalar v start stop =>
    cases v with
    | string s => exact .ok rfl
    | _ => exact .mismatch (.scalar _ start stop) (.scalar _ none none) "a string"
  | array start items => exact .mismatch (.array start items) (.array none items.unplaced) "a string"
  | object start entries =>
    exact .mismatch (.object start entries) (.object none entries.unplaced) "a string"
  | broken lead start fault => exact .refl _

theorem PlaceFree.asOption (h : PlaceFree decode) : PlaceFree (Reading.asOption decode) := by
  intro r
  have hsome : Alike Eq ((decode r).map some) ((decode r.unplaced).map some) :=
    (h r).map_eq some
  cases r with
  | scalar v start stop =>
    cases v with
    | null => exact .ok rfl
    | _ => exact hsome
  | broken lead start fault =>
    cases lead with
    | null => exact .error _ _
    | _ => exact hsome
  | _ => exact hsome

theorem PlaceFree.items (h : PlaceFree decode) : ∀ (items : Items) (index : Nat),
    Alike Eq (items.decode decode index) (items.unplaced.decode decode index)
  | .close _, _ => .ok rfl
  | .broken _, _ => .error _ _
  | .item head tail, index => by
    rw [Items.unplaced, Items.decode, Items.decode]
    obtain ⟨a, _, hx, hy, rfl⟩ | ⟨r, r', hx, hy⟩ := ((h head).within (.index index)).ok_or_error
    · rw [hx, hy]
      exact (h.items tail (index + 1)).map_eq _
    · rw [hx, hy]
      exact .error r r'

theorem PlaceFree.asList (h : PlaceFree decode) : PlaceFree (Reading.asList decode) := by
  intro r
  cases r with
  | scalar v start stop => exact .mismatch (.scalar v start stop) (.scalar v none none) "a sequence"
  | array start items => exact h.items items 0
  | object start entries =>
    exact .mismatch (.object start entries) (.object none entries.unplaced) "a sequence"
  | broken lead start fault => exact .refl _

theorem PlaceFree.entries (h : PlaceFree decode) :
    ∀ (entries : Entries) (members : List (String × α)),
      Alike Eq (entries.decode decode members) (entries.unplaced.decode decode members)
  | .close _, _ => .ok rfl
  | .broken _, _ => .error _ _
  | .keyOnly _ _, _ => .error _ _
  | .entry key value _ tail, members => by
    rw [Entries.unplaced, Entries.decode, Entries.decode]
    obtain ⟨a, _, hx, hy, rfl⟩ | ⟨r, r', hx, hy⟩ := ((h value).within (.key key.name)).ok_or_error
    · rw [hx, hy]
      exact h.entries tail _
    · rw [hx, hy]
      exact .error r r'

theorem PlaceFree.asMap (h : PlaceFree decode) : PlaceFree (Reading.asMap decode) := by
  intro r
  cases r with
  | scalar v start stop => exact .mismatch (.scalar v start stop) (.scalar v none none) "a map"
  | array start items => exact .mismatch (.array start items) (.array none items.unplaced) "a map"
  | object start entries => exact h.entries entries []
  | broken lead start fault => exact .refl _

/-! ## Records -/

/-- Records with the same members, wherever they end. -/
def Written.Same (w w' : Written α) : Prop := w.value = w'.value ∧ w.seen = w'.seen

section

variable {form : RecordForm α}

theorem Entries.record_alike (hset : ∀ a name, PlaceFree (form.set a name)) :
    ∀ (entries : Entries) (a : α) (seen : List String),
      Alike Written.Same (entries.record form a seen) (entries.unplaced.record form a seen)
  | .close _, _, _ => .ok ⟨rfl, rfl⟩
  | .broken _, _, _ => .error _ _
  | .keyOnly key _, _, seen => by
    rw [Entries.unplaced, Entries.record, Entries.record]
    split
    · exact .error _ _
    · split <;> exact .error _ _
  | .entry key value _ tail, a, seen => by
    rw [Entries.unplaced, Entries.record.eq_def, Entries.record.eq_def]
    dsimp only
    split
    · split
      · exact .error _ _
      · obtain ⟨a, _, hx, hy, rfl⟩ | ⟨r, r', hx, hy⟩ :=
          ((hset a key.name value).within (.key key.name)).ok_or_error
        · rw [hx, hy]
          exact tail.record_alike hset a _
        · rw [hx, hy]
          exact .error r r'
    · split
      · exact .error _ _
      · cases value with
        | broken lead start fault => exact .error _ _
        | _ => exact tail.record_alike hset a seen

theorem Items.surplus_alike (items : Items) (count : Nat) :
    Alike (fun _ _ => True) (items.surplus count) (items.unplaced.surplus count) := by
  cases items with
  | close stop => exact .ok trivial
  | broken fault =>
    rw [Items.unplaced, Items.surplus]
    split <;> exact .error _ _
  | item head tail =>
    rw [Items.unplaced, Items.surplus, Items.surplus]
    split <;> split <;> exact .error _ _

theorem Items.record_alike (hset : ∀ a name, PlaceFree (form.set a name)) (names : List String)
    (items : Items) (a : α) (seen : List String) (index : Nat) :
    Alike Written.Same (items.record form a seen index names)
      (items.unplaced.record form a seen index names) := by
  induction names generalizing items a seen index with
  | nil =>
    rw [Items.record, Items.record]
    exact (items.surplus_alike index).map fun _ _ _ => ⟨rfl, rfl⟩
  | cons name names ih =>
    cases items with
    | close stop => exact .ok ⟨rfl, rfl⟩
    | broken fault => exact .error _ _
    | item head tail =>
      rw [Items.unplaced, Items.record, Items.record]
      obtain ⟨a, _, hx, hy, rfl⟩ | ⟨r, r', hx, hy⟩ :=
        ((hset a name head).within (.index index)).ok_or_error
      · rw [hx, hy]
        exact ih tail a _ _
      · rw [hx, hy]
        exact .error r r'

/-- **Places make no difference to a record** if they make none to its members. -/
theorem Reading.record_alike (hset : ∀ a name, PlaceFree (form.set a name)) (a : α) (r : Reading) :
    Alike Written.Same (r.record form a) (r.unplaced.record form a) := by
  cases r with
  | scalar v start stop => exact .mismatch (.scalar v start stop) (.scalar v none none) form.expected
  | array start items => exact items.record_alike hset form.names a [] 0
  | object start entries => exact entries.record_alike hset a []
  | broken lead start fault => cases lead <;> exact .error _ _

end

/-! ## Values -/

mutual

/-- **Places make no difference to the value that a reading denotes.** -/
theorem Reading.asValue_alike : ∀ r : Reading, Alike Eq r.asValue r.unplaced.asValue
  | .scalar _ _ _ => .ok rfl
  | .array _ items => (items.asValues_alike 0).map_eq _
  | .object _ entries => (entries.asMembers_alike []).map_eq _
  | .broken _ _ _ => .error _ _

theorem Items.asValues_alike : ∀ (items : Items) (index : Nat),
    Alike Eq (items.asValues index) (items.unplaced.asValues index)
  | .close _, _ => .ok rfl
  | .broken _, _ => .error _ _
  | .item head tail, index => by
    rw [Items.unplaced, Items.asValues, Items.asValues]
    obtain ⟨v, _, hx, hy, rfl⟩ | ⟨r, r', hx, hy⟩ :=
      (head.asValue_alike.within (.index index)).ok_or_error
    · rw [hx, hy]
      exact (tail.asValues_alike (index + 1)).map_eq _
    · rw [hx, hy]
      exact .error r r'

theorem Entries.asMembers_alike : ∀ (entries : Entries) (ms : Members),
    Alike Eq (entries.asMembers ms) (entries.unplaced.asMembers ms)
  | .close _, _ => .ok rfl
  | .broken _, _ => .error _ _
  | .keyOnly _ _, _ => .error _ _
  | .entry key value _ tail, ms => by
    rw [Entries.unplaced, Entries.asMembers, Entries.asMembers]
    obtain ⟨v, _, hx, hy, rfl⟩ | ⟨r, r', hx, hy⟩ :=
      (value.asValue_alike.within (.key key.name)).ok_or_error
    · rw [hx, hy]
      exact tail.asMembers_alike _
    · rw [hx, hy]
      exact .error r r'

end

mutual

theorem Reading.unplaced_unplaced : ∀ r : Reading, r.unplaced.unplaced = r.unplaced
  | .scalar _ _ _ => rfl
  | .array _ items => congrArg (Reading.array none) items.unplaced_unplaced
  | .object _ entries => congrArg (Reading.object none) entries.unplaced_unplaced
  | .broken _ _ _ => rfl

theorem Items.unplaced_unplaced : ∀ items : Items, items.unplaced.unplaced = items.unplaced
  | .close _ => rfl
  | .broken _ => rfl
  | .item head tail => congrArg₂ Items.item head.unplaced_unplaced tail.unplaced_unplaced

theorem Entries.unplaced_unplaced : ∀ entries : Entries,
    entries.unplaced.unplaced = entries.unplaced
  | .close _ => rfl
  | .broken _ => rfl
  | .keyOnly _ _ => rfl
  | .entry key value _ tail =>
    congrArg₂ (Entries.entry ⟨key.name, none, none⟩ · none ·) value.unplaced_unplaced
      tail.unplaced_unplaced

end

/-! ## Texts that repeat no key -/

mutual

/-- No object in a reading repeats a key. -/
def Reading.Distinct : Reading → Prop
  | .array _ items => items.Distinct
  | .object _ entries => (entries.toList.map (·.1)).Nodup ∧ entries.AllDistinct
  | _ => True

def Items.Distinct : Items → Prop
  | .item head tail => head.Distinct ∧ tail.Distinct
  | _ => True

def Entries.AllDistinct : Entries → Prop
  | .entry _ value _ tail => value.Distinct ∧ tail.AllDistinct
  | _ => True

end

mutual

/-- Whether a reading repeats a key can be decided. -/
def Reading.decideDistinct : (r : Reading) → Decidable r.Distinct
  | .scalar _ _ _ => .isTrue trivial
  | .array _ items => items.decideDistinct
  | .object _ entries => @instDecidableAnd _ _ _ entries.decideAllDistinct
  | .broken _ _ _ => .isTrue trivial

def Items.decideDistinct : (items : Items) → Decidable items.Distinct
  | .close _ => .isTrue trivial
  | .broken _ => .isTrue trivial
  | .item head tail => @instDecidableAnd _ _ head.decideDistinct tail.decideDistinct

def Entries.decideAllDistinct : (entries : Entries) → Decidable entries.AllDistinct
  | .close _ => .isTrue trivial
  | .broken _ => .isTrue trivial
  | .keyOnly _ _ => .isTrue trivial
  | .entry _ value _ tail => @instDecidableAnd _ _ value.decideDistinct tail.decideAllDistinct

end

instance (r : Reading) : Decidable r.Distinct := r.decideDistinct

/-- A text in which no object repeats a key. -/
structure RepeatsNoKey (text : String) : Prop where
  distinct : (Reading.ofText text).1.Distinct

mutual

/-- **A reading that repeats no key is that of the value it denotes**, but for the places. -/
theorem Reading.ofValue_of_asValue : ∀ {r : Reading} {v : Value}, r.Distinct → r.asValue = .ok v →
    Reading.ofValue v = r.unplaced
  | .scalar s _ _, v, _, h => by
    rw [Reading.asValue] at h
    cases h
    cases s <;> rfl
  | .array _ items, v, hd, h => by
    rw [Reading.asValue] at h
    obtain ⟨vs, hvs, rfl⟩ := map_ok_iff.mp h
    exact congrArg (Reading.array none) (Items.ofValues_of_asValues hd hvs)
  | .object _ entries, v, hd, h => by
    rw [Reading.asValue] at h
    obtain ⟨ms, hms, rfl⟩ := map_ok_iff.mp h
    have hn : (([] : Members).map (·.1) ++ entries.toList.map (·.1)).Nodup := hd.1
    obtain ⟨added, rfl, hadded⟩ := Entries.ofMembers_of_asMembers hn hd.2 hms
    exact congrArg (Reading.object none) hadded
  | .broken _ _ _, v, _, h => by
    rw [Reading.asValue] at h
    cases h

theorem Items.ofValues_of_asValues : ∀ {items : Items} {index : Nat} {vs : List Value},
    items.Distinct → items.asValues index = .ok vs → Items.ofValues vs = items.unplaced
  | .close _, _, vs, _, h => by
    rw [Items.asValues] at h
    cases h
    rfl
  | .broken _, _, vs, _, h => by
    rw [Items.asValues] at h
    cases h
  | .item head tail, index, vs, hd, h => by
    rw [Items.asValues] at h
    split at h
    · cases h
    · rename_i v hv
      obtain ⟨vs, hvs, rfl⟩ := map_ok_iff.mp h
      exact congrArg₂ Items.item (Reading.ofValue_of_asValue hd.1 (within_ok hv))
        (Items.ofValues_of_asValues hd.2 hvs)

theorem Entries.ofMembers_of_asMembers : ∀ {entries : Entries} {ms ms' : Members},
    ((ms.map (·.1)) ++ entries.toList.map (·.1)).Nodup → entries.AllDistinct →
      entries.asMembers ms = .ok ms' →
        ∃ added, ms' = ms ++ added ∧ Entries.ofMembers added = entries.unplaced
  | .close _, ms, ms', _, _, h => by
    rw [Entries.asMembers] at h
    cases h
    exact ⟨[], (List.append_nil ms).symm, rfl⟩
  | .broken _, _, _, _, _, h => by
    rw [Entries.asMembers] at h
    cases h
  | .keyOnly _ _, _, _, _, _, h => by
    rw [Entries.asMembers] at h
    cases h
  | .entry key value _ tail, ms, ms', hn, hd, h => by
    rw [Entries.asMembers] at h
    split at h
    · cases h
    · rename_i v hv
      have hnew : key.name ∉ ms.map (·.1) := by
        intro hmem
        exact (List.nodup_append.mp hn).2.2 _ hmem _ List.mem_cons_self rfl
      rw [Members.insert_of_not_mem hnew] at h
      have hn' : ((ms ++ [(key.name, v)]).map (·.1) ++ tail.toList.map (·.1)).Nodup := by
        rw [List.map_append, List.append_assoc]
        exact hn
      obtain ⟨added, rfl, hadded⟩ := Entries.ofMembers_of_asMembers hn' hd.2 h
      refine ⟨(key.name, v) :: added, List.append_assoc _ _ _, ?_⟩
      rw [Entries.ofMembers, Entries.unplaced, hadded,
        Reading.ofValue_of_asValue hd.1 (within_ok hv)]

end

end SchemaTree.Json
