import SchemaTree.Proofs.Walk.Builds

/-!
# Flat schemas

The flat schema of a type has the same heading and the same fields as any other schema
of the type, and all its links are deferred.  `Compiler.fold` makes a schema flat: it puts
a deferred link in the place of every schema inside a field.

* `Compiler.flat_outcome`: the flat schema of a type is there whenever its declared fields
  are, and `Compiler.flatSchema` is what it is.
* `Builds.map_foldField`: **the fields that a walk builds are, folded, those of the flat
  schema**, whatever the walk has met before.
-/

namespace SchemaTree

namespace Compiler

variable {c : Compiler} {t : TypeId} {depth : Nat} {ds : List Descriptor} {s s' : Session}
  {fs : List Field}

/-- The flat schema of a type with given declared fields. -/
def flatSchema (c : Compiler) (t : TypeId) (ds : List Descriptor) : Schema :=
  .mk (c.heading (c.source.aliasFor t) t) (ds.filterMap (c.flatField t))

theorem outcome_bind_fst {α β : Type} (m : Traced α) (f : α → Traced β) (trace : Trace) :
    ((m >>= f).outcome trace).1 = match (m.outcome trace).1 with
      | .ok a => ((f a).outcome (m.outcome trace).2).1
      | .error e => .error e := by
  change (ExceptT.bindCont f (m.outcome trace).1 (m.outcome trace).2).1 = _
  cases (m.outcome trace).1 <;> rfl

/-- **The flat schema of a type is there whenever its fields are.** -/
theorem flat_outcome (c : Compiler) (t : TypeId) (trace : Trace) :
    ((c.flat t).outcome trace).1 =
      match c.source.fields t with
      | .ok ds => .ok (c.flatSchema t ds)
      | .error reason => .error (.introspection t reason) := by
  rw [flat, outcome_bind_fst, introspect_outcome]
  cases c.source.fields t <;> rfl

/-- A field with a deferred link in the place of the schema inside it. -/
def foldField (c : Compiler) : Field → Field
  | .mk p (.nested s) =>
    match p.target? with
    | some u => .mk p (.deferred (c.referenceTo u))
    | none => .mk p (.nested s)
  | f => f

/-- A schema with deferred links in the place of the schemas inside its fields. -/
def fold (c : Compiler) (s : Schema) : Schema := .mk s.heading (s.fields.map c.foldField)

@[simp] theorem foldField_ofProperty (p : Property) :
    c.foldField (.ofProperty p) = .ofProperty p := rfl

@[simp] theorem foldField_deferred (p : Property) (r : String) :
    c.foldField (.mk p (.deferred r)) = .mk p (.deferred r) := rfl

theorem foldField_nested {p : Property} {u : TypeId} (h : p.target? = some u) (x : Schema) :
    c.foldField (.mk p (.nested x)) = .mk p (.deferred (c.referenceTo u)) := by
  simp only [foldField, h]

@[simp] theorem property_foldField (f : Field) : (c.foldField f).property = f.property := by
  obtain ⟨p, l⟩ := f
  cases l with
  | none => rfl
  | deferred r => rfl
  | nested x => cases h : p.target? <;> simp only [foldField, h, Field.property]

theorem flatField_of_ignored {d : Descriptor} (h : (c.describe t d).ignored = true) :
    c.flatField t d = none := by
  simp only [flatField, h, if_true]

theorem flatField_of_plain {d : Descriptor} (h : (c.describe t d).ignored = false)
    (ht : (c.describe t d).target? = none) :
    c.flatField t d = some (.ofProperty (c.describe t d)) := by
  simp only [flatField, h, ht, Bool.false_eq_true, if_false]

theorem ignored_of_target {p : Property} {u : TypeId} (h : p.target? = some u) :
    p.ignored = false := by
  unfold Property.target? at h
  split at h
  · cases h
  · simpa using ‹¬ p.ignored = true›

theorem flatField_of_target {d : Descriptor} {u : TypeId}
    (h : (c.describe t d).target? = some u) :
    c.flatField t d = some (.mk (c.describe t d) (.deferred (c.referenceTo u))) := by
  simp only [flatField, ignored_of_target h, h, Bool.false_eq_true, if_false]

theorem property_of_flatField {d : Descriptor} {f : Field} (h : c.flatField t d = some f) :
    f.property = c.describe t d ∧ (c.describe t d).ignored = false := by
  cases hi : (c.describe t d).ignored with
  | true =>
    rw [flatField_of_ignored hi] at h
    cases h
  | false =>
    cases ht : (c.describe t d).target? with
    | none =>
      rw [flatField_of_plain hi ht] at h
      cases h
      exact ⟨rfl, rfl⟩
    | some u =>
      rw [flatField_of_target ht] at h
      cases h
      exact ⟨rfl, rfl⟩

theorem exists_flatField {d : Descriptor} (h : (c.describe t d).ignored = false) :
    ∃ f, c.flatField t d = some f := by
  cases ht : (c.describe t d).target? with
  | none => exact ⟨_, flatField_of_plain h ht⟩
  | some u => exact ⟨_, flatField_of_target ht⟩

/-- **A field of a flat schema is deferred if it has a target, and has no link otherwise.** -/
theorem link_of_flatField {d : Descriptor} {f : Field} (h : c.flatField t d = some f) :
    f.link = .none ∨ ∃ u, (c.describe t d).target? = some u ∧
      f.link = .deferred (c.referenceTo u) := by
  have hi := (property_of_flatField h).2
  cases ht : (c.describe t d).target? with
  | none =>
    rw [flatField_of_plain hi ht] at h
    cases h
    exact Or.inl rfl
  | some u =>
    rw [flatField_of_target ht] at h
    cases h
    exact Or.inr ⟨u, rfl, rfl⟩

/-- **The fields that a walk builds are, folded, those of the flat schema.** -/
theorem Builds.map_foldField (h : c.Builds t depth ds s fs s') :
    fs.map c.foldField = ds.filterMap (c.flatField t) := by
  induction h with
  | nil => rfl
  | ignored hd _ ih => rw [ih, List.filterMap_cons_none (flatField_of_ignored hd)]
  | plain hd ht _ ih =>
    rw [List.map_cons, ih, List.filterMap_cons_some (flatField_of_plain hd ht),
      foldField_ofProperty]
  | shared ht _ _ ih =>
    rw [List.map_cons, ih, List.filterMap_cons_some (flatField_of_target ht), foldField_nested ht]
  | deferred ht _ _ _ ih =>
    rw [List.map_cons, ih, List.filterMap_cons_some (flatField_of_target ht), foldField_deferred]
  | expanded ht _ _ _ _ _ _ _ ih =>
    rw [List.map_cons, ih, List.filterMap_cons_some (flatField_of_target ht), foldField_nested ht]

end Compiler

end SchemaTree
