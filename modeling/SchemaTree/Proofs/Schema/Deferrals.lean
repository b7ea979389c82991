import SchemaTree.Proofs.Schema.Occurrences

/-!
# The deferred fields of a tree

`Schema.deferrals` lists the deferred fields of a schema tree in the order in which a reader
of the document meets them: field by field, with those of a schema inside a field where that
field stands.  Each comes with the type it refers to and with the depth of the schema that
has it.

* `Schema.mem_deferrals`: the deferred fields are those of the schemas of the tree.
* `Deferral.firsts`: the first one for each type.
* `Deferral.foldl_add`: **adding deferred fields one by one, each unless its type is there, leaves
  the first one for each type.**
-/

namespace SchemaTree

/-- A deferred field: the type it refers to, and the depth of the schema that has it. -/
abbrev Deferral := Option TypeId × Nat

mutual

/-- The deferred fields of a tree, in order. -/
def Schema.deferrals (depth : Nat) : Schema → List Deferral
  | .mk _ fields => Field.deferralsAll depth fields

/-- The deferred fields among the fields of a schema and inside them. -/
def Field.deferralsAll (depth : Nat) : List Field → List Deferral
  | [] => []
  | f :: fs => f.deferrals depth ++ Field.deferralsAll depth fs

/-- A field if it is deferred, or the deferred fields of the schema inside it. -/
def Field.deferrals (depth : Nat) : Field → List Deferral
  | .mk p link => link.deferrals p.object depth

def Link.deferrals (target : Option TypeId) (depth : Nat) : Link → List Deferral
  | .none => []
  | .nested s => s.deferrals (depth + 1)
  | .deferred _ => [(target, depth)]

end

theorem Field.mem_deferrals {f : Field} {depth : Nat} {e : Deferral} :
    e ∈ f.deferrals depth ↔ (f.isDeferred = true ∧ e = (f.property.object, depth)) ∨
      ∃ s, f.link = .nested s ∧ e ∈ s.deferrals (depth + 1) := by
  obtain ⟨p, l⟩ := f
  cases l <;> simp [Field.deferrals, Link.deferrals, Field.isDeferred]

theorem Field.mem_deferralsAll {fs : List Field} {depth : Nat} {e : Deferral} :
    e ∈ Field.deferralsAll depth fs ↔ ∃ f ∈ fs, e ∈ f.deferrals depth := by
  induction fs with
  | nil => simp [Field.deferralsAll]
  | cons f fs ih => simp [Field.deferralsAll, ih]

/-- **The deferred fields of a tree are those of its schemas.** -/
theorem Schema.mem_deferrals {s : Schema} (label : Option TypeId) {depth : Nat} {e : Deferral} :
    e ∈ s.deferrals depth ↔ ∃ o ∈ s.occurrences label depth, ∃ f ∈ o.schema.fields,
      f.isDeferred = true ∧ e = (f.property.object, o.depth) := by
  induction s using Schema.nested_induction generalizing label depth with
  | mk h fields ih =>
    rw [Schema.deferrals, Field.mem_deferralsAll]
    constructor
    · rintro ⟨f, hf, he⟩
      rcases Field.mem_deferrals.mp he with ⟨hd, rfl⟩ | ⟨sub, hl, he⟩
      · exact ⟨_, Schema.self_mem_occurrences _ label depth, f, hf, hd, rfl⟩
      · obtain ⟨o, ho, hrest⟩ := (ih f hf sub hl f.property.object).mp he
        exact ⟨o, Schema.mem_occurrences.mpr (Or.inr ⟨f, hf, sub, hl, ho⟩), hrest⟩
    · rintro ⟨o, ho, g, hg, hd, he⟩
      rcases Schema.mem_occurrences.mp ho with rfl | ⟨f, hf, sub, hl, hm⟩
      · exact ⟨g, hg, Field.mem_deferrals.mpr (Or.inl ⟨hd, he⟩)⟩
      · have hsub := (ih f hf sub hl f.property.object).mpr ⟨o, hm, g, hg, hd, he⟩
        exact ⟨f, hf, Field.mem_deferrals.mpr (Or.inr ⟨sub, hl, hsub⟩)⟩

theorem Schema.hasDeferred_iff_exists_deferral {s : Schema} (depth : Nat) :
    s.hasDeferred = true ↔ ∃ e, e ∈ s.deferrals depth := by
  rw [Schema.hasDeferred_iff none depth]
  constructor
  · rintro ⟨o, ho, f, hf, hd⟩
    exact ⟨_, (Schema.mem_deferrals none).mpr ⟨o, ho, f, hf, hd, rfl⟩⟩
  · rintro ⟨e, he⟩
    obtain ⟨o, ho, f, hf, hd, -⟩ := (Schema.mem_deferrals none).mp he
    exact ⟨o, ho, f, hf, hd⟩

theorem Schema.deferrals_eq_nil {s : Schema} (h : s.hasDeferred = false) (depth : Nat) :
    s.deferrals depth = [] := by
  rw [List.eq_nil_iff_forall_not_mem]
  intro e he
  have hdeferred := (Schema.hasDeferred_iff_exists_deferral depth).mpr ⟨e, he⟩
  rw [h] at hdeferred
  cases hdeferred

namespace Deferral

/-- Whether two deferred fields refer to the same type. -/
def sameTarget (e e' : Deferral) : Bool := e.1 == e'.1

/-- The first deferred field for each type, in order. -/
def firsts (es : List Deferral) : List Deferral := es.eraseDupsBy sameTarget

/-- Adds a deferred field at the end, unless there is one for its type. -/
def add (known : List Deferral) (e : Deferral) : List Deferral :=
  if known.any (sameTarget e) then known else known ++ [e]

variable {known es : List Deferral} {e : Deferral}

theorem add_of_any (h : known.any (sameTarget e) = true) : add known e = known := by
  rw [add, if_pos h]

theorem foldl_add_of_any (h : ∀ e ∈ es, known.any (sameTarget e) = true) :
    es.foldl add known = known := by
  induction es with
  | nil => rfl
  | cons e es ih =>
    obtain ⟨he, hes⟩ := List.forall_mem_cons.mp h
    rw [List.foldl_cons, add_of_any he, ih hes]

/-- **Adding deferred fields one by one leaves the first one for each type that was not there.** -/
theorem foldl_add (known es : List Deferral) :
    es.foldl add known = known ++ firsts (es.filter fun e => !known.any (sameTarget e)) := by
  induction es generalizing known with
  | nil => simp [firsts]
  | cons e es ih =>
    rw [List.foldl_cons, ih]
    cases he : known.any (sameTarget e) with
    | true => rw [add_of_any he, List.filter_cons_of_neg (by simp [he])]
    | false =>
      have hadd : add known e = known ++ [e] := by rw [add, if_neg (by simp [he])]
      have hfilter : es.filter (fun e' => !(known ++ [e]).any (sameTarget e')) =
          (es.filter fun e' => !known.any (sameTarget e')).filter
            fun e' => decide (sameTarget e' e = false) := by
        rw [List.filter_filter]
        refine List.filter_congr fun e' _ => ?_
        rw [List.any_append, List.any_cons, List.any_nil, Bool.or_false, Bool.not_or,
          Bool.and_comm]
        cases sameTarget e' e <;> rfl
      rw [hadd, hfilter, List.filter_cons_of_pos (by simp [he]), firsts, firsts,
        List.eraseDupsBy_cons, List.append_assoc, List.singleton_append]

end Deferral

end SchemaTree
