import SchemaTree.Schema

/-!
# The schemas inside a schema

A schema tree holds a schema at its root and, below it, one for every nested
link.  `Schema.occurrences` lists them in the order in which a reader of the
document meets them: a schema before those inside it, and those inside it field by
field.  Each comes with its depth, the root at the depth it is given, and with the
type it is labelled with: **a schema inside a field is labelled with the type the
field refers to.**

* `Schema.forall_occurrences`: what holds at the root and is passed on through
  nested links holds everywhere.
* `Schema.height`: how many links the deepest schema is away from the root;
  `exists_occurrence_height` finds one that deep, and `height_lt` is what makes
  induction along nested links end.
-/

namespace SchemaTree

/-- A schema where it stands in a tree. -/
structure Occurrence where
  label : Option TypeId
  depth : Nat
  schema : Schema

mutual

/-- The schemas of a tree, each before those inside it. -/
def Schema.occurrences (label : Option TypeId) (depth : Nat) : Schema → List Occurrence
  | .mk h fields => ⟨label, depth, .mk h fields⟩ :: Field.occurrencesAll (depth + 1) fields

/-- The schemas inside fields, in the order of the fields. -/
def Field.occurrencesAll (depth : Nat) : List Field → List Occurrence
  | [] => []
  | f :: fs => f.occurrences depth ++ Field.occurrencesAll depth fs

/-- The schemas inside a field. -/
def Field.occurrences (depth : Nat) : Field → List Occurrence
  | .mk p link => link.occurrences p.object depth

def Link.occurrences (label : Option TypeId) (depth : Nat) : Link → List Occurrence
  | .none => []
  | .nested s => s.occurrences label depth
  | .deferred _ => []

end

mutual

/-- The number of nested links on the way to the deepest schema of a tree. -/
def Schema.height : Schema → Nat
  | .mk _ fields => Field.heightAll fields

/-- The number of nested links on the way to the deepest schema inside fields. -/
def Field.heightAll : List Field → Nat
  | [] => 0
  | f :: fs => max f.height (Field.heightAll fs)

def Field.height : Field → Nat
  | .mk _ link => link.height

def Link.height : Link → Nat
  | .none => 0
  | .nested s => s.height + 1
  | .deferred _ => 0

end

/-! ## Fields and links -/

@[simp] theorem Field.property_mk (p : Property) (l : Link) : (Field.mk p l).property = p := rfl

@[simp] theorem Field.link_mk (p : Property) (l : Link) : (Field.mk p l).link = l := rfl

@[simp] theorem Field.property_ofProperty (p : Property) : (Field.ofProperty p).property = p := rfl

@[simp] theorem Field.link_ofProperty (p : Property) : (Field.ofProperty p).link = .none := rfl

@[simp] theorem Schema.heading_mk (h : Heading) (fs : List Field) :
    (Schema.mk h fs).heading = h := rfl

@[simp] theorem Schema.fields_mk (h : Heading) (fs : List Field) :
    (Schema.mk h fs).fields = fs := rfl

theorem Field.isDeferred_iff {f : Field} : f.isDeferred = true ↔ ∃ r, f.link = .deferred r := by
  obtain ⟨p, l⟩ := f
  cases l <;> simp [Field.isDeferred]

/-- **Induction over a schema tree**: a schema has a property if all schemas inside its fields have
it. -/
@[elab_as_elim]
theorem Schema.nested_induction {motive : Schema → Prop}
    (mk : ∀ h fields, (∀ f ∈ fields, ∀ s, f.link = .nested s → motive s) →
      motive (.mk h fields)) (s : Schema) : motive s := by
  refine @Schema.rec motive (fun f => ∀ s, f.link = .nested s → motive s)
    (fun l => ∀ s, l = .nested s → motive s)
    (fun fs => ∀ f ∈ fs, ∀ s, f.link = .nested s → motive s) ?_ ?_ ?_ ?_ ?_ ?_ ?_ s
  · exact fun h fields ih => mk h fields ih
  · exact fun _ _ ih s hs => ih s hs
  · exact fun _ hs => nomatch hs
  · intro s ih s' hs
    cases hs
    exact ih
  · exact fun _ _ hs => nomatch hs
  · exact fun _ hf => absurd hf List.not_mem_nil
  · intro f fs hf hfs g hg
    rcases List.mem_cons.mp hg with rfl | hg
    · exact hf
    · exact hfs g hg

/-! ## Occurrences -/

theorem Field.occurrences_of_nested {f : Field} {s : Schema} (h : f.link = .nested s)
    (depth : Nat) : f.occurrences depth = s.occurrences f.property.object depth := by
  obtain ⟨p, l⟩ := f
  cases h
  rfl

theorem Field.mem_occurrences {f : Field} {depth : Nat} {o : Occurrence} :
    o ∈ f.occurrences depth ↔
      ∃ s, f.link = .nested s ∧ o ∈ s.occurrences f.property.object depth := by
  obtain ⟨p, l⟩ := f
  cases l <;> simp [Field.occurrences, Link.occurrences]

theorem Field.mem_occurrences_nested {p : Property} {label : Option TypeId}
    (h : p.object = label) (s : Schema) {depth : Nat} {o : Occurrence} :
    o ∈ (Field.mk p (.nested s)).occurrences depth ↔ o ∈ s.occurrences label depth := by
  rw [Field.occurrences_of_nested (s := s) rfl, Field.property_mk, h]

theorem Field.mem_occurrencesAll {fs : List Field} {depth : Nat} {o : Occurrence} :
    o ∈ Field.occurrencesAll depth fs ↔ ∃ f ∈ fs, o ∈ f.occurrences depth := by
  induction fs with
  | nil => simp [Field.occurrencesAll]
  | cons f fs ih => simp [Field.occurrencesAll, ih]

theorem Schema.mem_occurrences {s : Schema} {label : Option TypeId} {depth : Nat}
    {o : Occurrence} :
    o ∈ s.occurrences label depth ↔ o = ⟨label, depth, s⟩ ∨
      ∃ f ∈ s.fields, ∃ sub, f.link = .nested sub ∧
        o ∈ sub.occurrences f.property.object (depth + 1) := by
  obtain ⟨h, fields⟩ := s
  simp only [Schema.occurrences, List.mem_cons, Field.mem_occurrencesAll, Field.mem_occurrences,
    Schema.fields_mk]

theorem Schema.self_mem_occurrences (s : Schema) (label : Option TypeId) (depth : Nat) :
    ⟨label, depth, s⟩ ∈ s.occurrences label depth :=
  Schema.mem_occurrences.mpr (Or.inl rfl)

theorem Schema.forall_mem_occurrences {P : Occurrence → Prop} {s : Schema}
    {label : Option TypeId} {depth : Nat} :
    (∀ o ∈ s.occurrences label depth, P o) ↔
      P ⟨label, depth, s⟩ ∧ ∀ o ∈ Field.occurrencesAll (depth + 1) s.fields, P o := by
  obtain ⟨h, fields⟩ := s
  rw [Schema.occurrences, List.forall_mem_cons, Schema.fields_mk]

theorem Schema.occurrences_trans {s : Schema} {label : Option TypeId} {depth : Nat}
    {o o' : Occurrence} (ho : o ∈ s.occurrences label depth)
    (ho' : o' ∈ o.schema.occurrences o.label o.depth) : o' ∈ s.occurrences label depth := by
  induction s using Schema.nested_induction generalizing label depth with
  | mk h fields ih =>
    rcases Schema.mem_occurrences.mp ho with rfl | ⟨f, hf, sub, hl, hm⟩
    · exact ho'
    · exact Schema.mem_occurrences.mpr (Or.inr ⟨f, hf, sub, hl, ih f hf sub hl hm⟩)

theorem Schema.nested_mem_occurrences {s : Schema} {label : Option TypeId} {depth : Nat}
    {o : Occurrence} (ho : o ∈ s.occurrences label depth) {f : Field} (hf : f ∈ o.schema.fields)
    {sub : Schema} (hl : f.link = .nested sub) :
    ⟨f.property.object, o.depth + 1, sub⟩ ∈ s.occurrences label depth :=
  Schema.occurrences_trans ho
    (Schema.mem_occurrences.mpr (Or.inr ⟨f, hf, sub, hl, sub.self_mem_occurrences _ _⟩))

/-- **What holds at the root and is passed on through nested links holds everywhere.** -/
theorem Schema.forall_occurrences {P : Occurrence → Prop} {s : Schema} {label : Option TypeId}
    {depth : Nat} (root : P ⟨label, depth, s⟩)
    (step : ∀ o, P o → ∀ f ∈ o.schema.fields, ∀ sub, f.link = .nested sub →
      P ⟨f.property.object, o.depth + 1, sub⟩) :
    ∀ o ∈ s.occurrences label depth, P o := by
  induction s using Schema.nested_induction generalizing label depth with
  | mk h fields ih =>
    intro o ho
    rcases Schema.mem_occurrences.mp ho with rfl | ⟨f, hf, sub, hl, hm⟩
    · exact root
    · exact ih f hf sub hl (step _ root f hf sub hl) o hm

/-! ## Heights -/

theorem Field.height_of_nested {f : Field} {s : Schema} (h : f.link = .nested s) :
    f.height = s.height + 1 := by
  obtain ⟨p, l⟩ := f
  cases h
  rfl

theorem Field.height_le_heightAll {fs : List Field} {f : Field} (h : f ∈ fs) :
    f.height ≤ Field.heightAll fs := by
  induction fs with
  | nil => exact absurd h List.not_mem_nil
  | cons g fs ih =>
    rw [Field.heightAll]
    rcases List.mem_cons.mp h with rfl | h
    · exact Nat.le_max_left _ _
    · exact Nat.le_trans (ih h) (Nat.le_max_right _ _)

theorem Schema.height_lt {s sub : Schema} {f : Field} (hf : f ∈ s.fields)
    (hl : f.link = .nested sub) : sub.height < s.height := by
  obtain ⟨h, fields⟩ := s
  have hle : f.height ≤ Field.heightAll fields := Field.height_le_heightAll hf
  rw [Field.height_of_nested hl] at hle
  exact hle

theorem Schema.height_le_of_mem {s : Schema} {label : Option TypeId} {depth : Nat}
    {o : Occurrence} (ho : o ∈ s.occurrences label depth) : o.schema.height ≤ s.height := by
  refine Schema.forall_occurrences (P := fun o => o.schema.height ≤ s.height) (Nat.le_refl _) ?_
    o ho
  intro o ho f hf sub hl
  exact Nat.le_trans (Nat.le_of_lt (Schema.height_lt hf hl)) ho

/-- **All schemas inside a schema are less high.** -/
theorem Schema.height_lt_of_mem {s : Schema} {depth : Nat} {o : Occurrence}
    (ho : o ∈ Field.occurrencesAll depth s.fields) : o.schema.height < s.height := by
  obtain ⟨f, hf, ho⟩ := Field.mem_occurrencesAll.mp ho
  obtain ⟨sub, hl, ho⟩ := Field.mem_occurrences.mp ho
  exact Nat.lt_of_le_of_lt (Schema.height_le_of_mem ho) (Schema.height_lt hf hl)

theorem Field.exists_height_eq {fs : List Field} (h : Field.heightAll fs ≠ 0) :
    ∃ f ∈ fs, ∃ s, f.link = .nested s ∧ s.height + 1 = Field.heightAll fs := by
  induction fs with
  | nil => exact absurd rfl h
  | cons f fs ih =>
    rw [Field.heightAll] at h ⊢
    rcases Nat.le_total (Field.heightAll fs) f.height with hle | hle
    · rw [Nat.max_eq_left hle] at h ⊢
      obtain ⟨p, l⟩ := f
      cases l with
      | none => exact absurd rfl h
      | deferred r => exact absurd rfl h
      | nested s => exact ⟨_, List.mem_cons_self, s, rfl, rfl⟩
    · rw [Nat.max_eq_right hle] at h ⊢
      obtain ⟨g, hg, s, hs, hh⟩ := ih h
      exact ⟨g, List.mem_cons_of_mem _ hg, s, hs, hh⟩

/-- **A tree has a schema as deep as it is high.** -/
theorem Schema.exists_occurrence_height (s : Schema) (label : Option TypeId) (depth : Nat) :
    ∃ o ∈ s.occurrences label depth, o.depth = depth + s.height := by
  induction s using Schema.nested_induction generalizing label depth with
  | mk h fields ih =>
    by_cases hz : Field.heightAll fields = 0
    · exact ⟨_, Schema.self_mem_occurrences _ label depth, by rw [Schema.height, hz]; rfl⟩
    · obtain ⟨f, hf, sub, hl, hh⟩ := Field.exists_height_eq hz
      obtain ⟨o, ho, hd⟩ := ih f hf sub hl f.property.object (depth + 1)
      refine ⟨o, Schema.mem_occurrences.mpr (Or.inr ⟨f, hf, sub, hl, ho⟩), ?_⟩
      rw [hd, Schema.height, ← hh]
      omega

/-! ## Deferred links -/

theorem Field.anyDeferred_iff {fs : List Field} :
    Field.anyDeferred fs = true ↔ ∃ f ∈ fs, f.hasDeferred = true := by
  induction fs with
  | nil => simp [Field.anyDeferred]
  | cons f fs ih => simp [Field.anyDeferred, ih]

theorem Field.hasDeferred_iff {f : Field} : f.hasDeferred = true ↔
    f.isDeferred = true ∨ ∃ s, f.link = .nested s ∧ s.hasDeferred = true := by
  obtain ⟨p, l⟩ := f
  cases l <;> simp [Field.hasDeferred, Link.hasDeferred, Field.isDeferred]

/-- **A tree has a deferred link if one of its schemas has a deferred field.** -/
theorem Schema.hasDeferred_iff {s : Schema} (label : Option TypeId) (depth : Nat) :
    s.hasDeferred = true ↔
      ∃ o ∈ s.occurrences label depth, ∃ f ∈ o.schema.fields, f.isDeferred = true := by
  induction s using Schema.nested_induction generalizing label depth with
  | mk h fields ih =>
    rw [Schema.hasDeferred, Field.anyDeferred_iff]
    constructor
    · rintro ⟨f, hf, hd⟩
      rcases Field.hasDeferred_iff.mp hd with hd | ⟨sub, hl, hs⟩
      · exact ⟨_, Schema.self_mem_occurrences _ label depth, f, hf, hd⟩
      · obtain ⟨o, ho, g, hg, hd⟩ := (ih f hf sub hl _ _).mp hs
        exact ⟨o, Schema.mem_occurrences.mpr (Or.inr ⟨f, hf, sub, hl, ho⟩), g, hg, hd⟩
    · rintro ⟨o, ho, g, hg, hd⟩
      rcases Schema.mem_occurrences.mp ho with rfl | ⟨f, hf, sub, hl, hm⟩
      · exact ⟨g, hg, Field.hasDeferred_iff.mpr (Or.inl hd)⟩
      · exact ⟨f, hf, Field.hasDeferred_iff.mpr
          (Or.inr ⟨sub, hl, (ih f hf sub hl _ _).mpr ⟨o, hm, g, hg, hd⟩⟩)⟩

end SchemaTree
