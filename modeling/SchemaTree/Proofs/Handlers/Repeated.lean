import SchemaTree.Proofs.Handlers.Standard
import SchemaTree.Schema

/-!
# Standard handlers run twice

Classifying a field and copying its annotations are both a `Writing`: for each member of the
property, they write a value that only depends on the declaration, or leave the member alone.  So is
any sequence of the two (`exists_writing`), and **to write the same a second time changes nothing**,
also if a format has been guessed in between (`onto_runFormatGuess`).

* `applyField_twice`: **a pipeline of standard handlers in which no format is guessed before the
  field is classified and annotated may run again without effect.**
-/

namespace SchemaTree

/-- Runs a pipeline over a field. Handlers do not see the link, and it stays. -/
def Pipeline.applyField (p : Pipeline) (owner : TypeId) (f : Field) : Field :=
  .mk (p.apply owner f.property).property f.link

namespace Handlers

open Json

/-! ## Writings -/

/-- What is written over a property: for each member a value, or nothing. -/
structure Writing where
  kind : Option Kind := none
  items : Option Kind := none
  object : Option (Option TypeId) := none
  ignored : Bool := false
  required : Bool := false
  title : Option String := none
  description : Option String := none
  format : Option String := none
  minimum : Option Double := none
  maximum : Option Double := none
  minLength : Option Nat := none
  maxLength : Option Nat := none
  pattern : Option String := none
  choices : Option (List Value) := none
  fallback : Option Value := none

namespace Writing

/-- Writes over a property. -/
def onto (w : Writing) (x : Property) : Property :=
  { x with
    kind := w.kind.or x.kind
    items := w.items.or x.items
    object := w.object.getD x.object
    ignored := x.ignored || w.ignored
    required := x.required || w.required
    title := w.title.or x.title
    description := w.description.or x.description
    format := w.format.or x.format
    minimum := w.minimum.or x.minimum
    maximum := w.maximum.or x.maximum
    minLength := w.minLength.or x.minLength
    maxLength := w.maxLength.or x.maxLength
    pattern := w.pattern.or x.pattern
    choices := w.choices.getD x.choices
    fallback := w.fallback.or x.fallback }

/-- Two writings, one after the other, as one. -/
def andThen (u w : Writing) : Writing where
  kind := w.kind.or u.kind
  items := w.items.or u.items
  object := w.object.or u.object
  ignored := u.ignored || w.ignored
  required := u.required || w.required
  title := w.title.or u.title
  description := w.description.or u.description
  format := w.format.or u.format
  minimum := w.minimum.or u.minimum
  maximum := w.maximum.or u.maximum
  minLength := w.minLength.or u.minLength
  maxLength := w.maxLength.or u.maxLength
  pattern := w.pattern.or u.pattern
  choices := w.choices.or u.choices
  fallback := w.fallback.or u.fallback

theorem getD_or {α : Type} (a b : Option α) (c : α) : (a.or b).getD c = a.getD (b.getD c) := by
  cases a <;> rfl

theorem or_or_self {α : Type} (a b : Option α) : a.or (a.or b) = a.or b := by
  cases a <;> rfl

theorem getD_getD_self {α : Type} (a : Option α) (b : α) : a.getD (a.getD b) = a.getD b := by
  cases a <;> rfl

theorem onto_onto (u w : Writing) (x : Property) : w.onto (u.onto x) = (u.andThen w).onto x := by
  simp only [onto, andThen, Option.or_assoc, Bool.or_assoc, getD_or]

theorem onto_empty (x : Property) : ({} : Writing).onto x = x := by
  simp [onto]

theorem declared_onto (w : Writing) (x : Property) : (w.onto x).declared = x.declared := rfl

theorem onto_twice (w : Writing) (x : Property) : w.onto (w.onto x) = w.onto x := by
  simp only [onto, or_or_self, getD_getD_self, Bool.or_assoc, Bool.or_self]

/-- **To write the same again changes nothing, also if a format has been guessed in between.** -/
theorem onto_runFormatGuess (w : Writing) (x : Property) :
    w.onto (runFormatGuess (w.onto x)) = runFormatGuess (w.onto x) := by
  simp only [runFormatGuess_eq, onto, Option.orElse_eq_orElse, Option.orElse_eq_or,
    Option.or_assoc, or_or_self, getD_getD_self, Bool.or_assoc, Bool.or_self]

/-- The writing of a shape. -/
def ofShape (sh : Shape) : Writing where
  kind := some (shapeKind sh)
  items := shapeItems sh
  object := (shapeObject sh).map some

/-- The writing of annotations. -/
def ofAnnotations (a : Annotations) : Writing where
  kind := a.kind
  object := if (a.kind.map Kind.isPrimitive).getD false then some none else none
  ignored := a.ignore
  required := a.required
  title := a.title
  description := a.description
  format := a.format
  minimum := a.minimum
  maximum := a.maximum
  minLength := a.minLength
  maxLength := a.maxLength
  pattern := a.pattern
  choices := a.choices
  fallback := a.fallback

theorem classify_eq_onto (x : Property) (sh : Shape) : classify x sh = (ofShape sh).onto x := by
  rw [classify_eq]
  cases h : shapeObject sh <;> simp [onto, ofShape, h]

theorem annotate_eq_onto (x : Property) (a : Annotations) :
    annotate x a = (ofAnnotations a).onto x := by
  simp only [annotate, onto, ofAnnotations, Option.orElse_eq_orElse, Option.orElse_eq_or,
    Option.none_or]
  split <;> rfl

end Writing

/-! ## Sequences of handlers -/

variable {hs : List Handler} {owner : TypeId}

/-- The handlers that write what is declared. -/
def Writes (h : Handler) : Prop := h = declaredType ∨ h = annotated

theorem Writes.exists_writing {h : Handler} (hw : Writes h) (owner : TypeId)
    (declared : Option Descriptor) :
    ∃ w : Writing, ∀ x : Property, x.declared = declared → h.run owner x = w.onto x := by
  cases declared with
  | none =>
    refine ⟨{}, fun x hx => ?_⟩
    rw [Writing.onto_empty]
    rcases hw with rfl | rfl
    · change runDeclaredType x = x
      rw [runDeclaredType, hx]
    · change runAnnotated x = x
      rw [runAnnotated, hx]
  | some d =>
    rcases hw with rfl | rfl
    · refine ⟨.ofShape d.shape, fun x hx => ?_⟩
      change runDeclaredType x = _
      rw [runDeclaredType, hx]
      exact Writing.classify_eq_onto x d.shape
    · refine ⟨.ofAnnotations d.annotations, fun x hx => ?_⟩
      change runAnnotated x = _
      rw [runAnnotated, hx]
      exact Writing.annotate_eq_onto x d.annotations

/-- **A sequence of handlers that write what is declared is a writing**, the same for all properties
with the same declaration. -/
theorem exists_writing (hw : ∀ h ∈ hs, Writes h) (owner : TypeId) (declared : Option Descriptor) :
    ∃ w : Writing, ∀ x : Property, x.declared = declared →
      hs.foldl (fun x h => h.run owner x) x = w.onto x := by
  induction hs with
  | nil => exact ⟨{}, fun x _ => (Writing.onto_empty x).symm⟩
  | cons h hs ih =>
    obtain ⟨hfirst, hrest⟩ := List.forall_mem_cons.mp hw
    obtain ⟨u, hu⟩ := hfirst.exists_writing owner declared
    obtain ⟨w, hw⟩ := ih hrest
    refine ⟨u.andThen w, fun x hx => ?_⟩
    rw [List.foldl_cons, hu x hx, hw _ ((u.declared_onto x).trans hx), Writing.onto_onto]

theorem runFormatGuess_twice (x : Property) :
    runFormatGuess (runFormatGuess x) = runFormatGuess x := by
  simp only [runFormatGuess_eq, Option.orElse_eq_orElse, Option.orElse_eq_or, Option.or_assoc,
    Option.or_self]

theorem foldl_formatGuess (hg : ∀ h ∈ hs, h = formatGuess) (x : Property) :
    hs.foldl (fun x h => h.run owner x) x = if hs = [] then x else runFormatGuess x := by
  induction hs generalizing x with
  | nil => rfl
  | cons h hs ih =>
    obtain ⟨rfl, hrest⟩ := List.forall_mem_cons.mp hg
    rw [List.foldl_cons, ih hrest, if_neg (List.cons_ne_nil _ _)]
    change (if hs = [] then runFormatGuess x else runFormatGuess (runFormatGuess x)) = _
    rw [runFormatGuess_twice, ite_self]

/-- No format is guessed before a field is classified or annotated. -/
def GuessesLast (hs : List Handler) : Prop :=
  hs.Pairwise fun a b => a = formatGuess → b ≠ declaredType ∧ b ≠ annotated

theorem GuessesLast.exists_split (hstandard : ∀ h ∈ hs, h ∈ standard.map (·.1))
    (hlast : GuessesLast hs) :
    ∃ writers guesses, hs = writers ++ guesses ∧ (∀ h ∈ writers, Writes h) ∧
      ∀ h ∈ guesses, h = formatGuess := by
  induction hs with
  | nil => exact ⟨[], [], rfl, fun _ h => absurd h List.not_mem_nil,
      fun _ h => absurd h List.not_mem_nil⟩
  | cons h hs ih =>
    obtain ⟨hfirst, hrest⟩ := List.forall_mem_cons.mp hstandard
    obtain ⟨hbehind, htail⟩ := List.pairwise_cons.mp hlast
    have hkinds : ∀ h ∈ standard.map (·.1), Writes h ∨ h = formatGuess := by
      simp [standard, Writes]
    rcases hkinds h hfirst with hw | rfl
    · obtain ⟨writers, guesses, rfl, hwriters, hguesses⟩ := ih hrest htail
      exact ⟨h :: writers, guesses, rfl, List.forall_mem_cons.mpr ⟨hw, hwriters⟩, hguesses⟩
    · refine ⟨[], formatGuess :: hs, rfl, fun _ h => absurd h List.not_mem_nil, ?_⟩
      refine List.forall_mem_cons.mpr ⟨rfl, fun g hg => ?_⟩
      obtain ⟨hdeclared, hannotated⟩ := hbehind g hg rfl
      exact (hkinds g (hrest g hg)).resolve_left (not_or.mpr ⟨hdeclared, hannotated⟩)

/-! ## Pipelines -/

/-- **Standard handlers that guess formats last have done all they can when they have run once.** -/
theorem foldl_twice (hstandard : ∀ h ∈ hs, h ∈ standard.map (·.1)) (hlast : GuessesLast hs)
    (x : Property) :
    hs.foldl (fun x h => h.run owner x) (hs.foldl (fun x h => h.run owner x) x) =
      hs.foldl (fun x h => h.run owner x) x := by
  obtain ⟨writers, guesses, rfl, hwriters, hguesses⟩ := hlast.exists_split hstandard
  obtain ⟨w, hw⟩ := exists_writing hwriters owner x.declared
  simp only [List.foldl_append, hw x rfl, foldl_formatGuess hguesses]
  split
  · rw [hw (w.onto x) rfl, w.onto_twice]
  · rw [hw (runFormatGuess (w.onto x)) (declared_runFormatGuess (w.onto x)),
      w.onto_runFormatGuess, runFormatGuess_twice]

end Handlers

namespace Pipeline

open Handlers

theorem pipeline_apply {p : Pipeline} (hp : ∀ h ∈ p.handlers, h ∈ standard.map (·.1))
    (owner : TypeId) (x : Property) : (p.apply owner x).pipeline = p := by
  have hnothing : ∀ h ∈ standard.map (·.1), ∀ y, h.registers owner y = [] := by
    simp [standard, declaredType, annotated, formatGuess]
  have hfold : ∀ (hs : List Handler) (r : Run), (∀ h ∈ hs, h ∈ standard.map (·.1)) →
      (hs.foldl (Run.step owner) r).pipeline = r.pipeline := by
    intro hs
    induction hs with
    | nil => exact fun r _ => rfl
    | cons h hs ih =>
      intro r hs
      obtain ⟨hfirst, hrest⟩ := List.forall_mem_cons.mp hs
      rw [List.foldl_cons, ih _ hrest]
      change r.pipeline.registerAll (h.registers owner r.property) = r.pipeline
      rw [hnothing h hfirst]
      rfl
  exact hfold p.handlers ⟨x, p, []⟩ hp

/-- **A second run of standard handlers changes nothing**, if no format is guessed before a field is
classified or annotated.  This holds of all fields, whether they are declared or not, linked,
deferred, or anything else before. -/
theorem applyField_twice {p : Pipeline} (hp : ∀ h ∈ p.handlers, h ∈ standard.map (·.1))
    (hlast : GuessesLast p.handlers) (owner : TypeId) (f : Field) :
    (p.apply owner f.property).pipeline = p ∧
      p.applyField owner (p.applyField owner f) = p.applyField owner f := by
  refine ⟨pipeline_apply hp owner f.property, ?_⟩
  have htwice : (p.apply owner (p.apply owner f.property).property).property =
      (p.apply owner f.property).property := by
    rw [apply_property, apply_property]
    exact foldl_twice hp hlast f.property
  exact congrArg (Field.mk · f.link) htwice

/-- A deferred field of a type, which its annotations make a string. -/
def overriddenField : Field :=
  .mk { name := "contact_email", kind := some .array, object := some ⟨"Other"⟩, choices := [.null]
        declared := some { name := "contact_email", shape := .entity ⟨"Contact"⟩
                           annotations := { kind := some .string, required := true } } }
    (.deferred "http://localhost/schemas/contact.json#")

/-- The first run makes the field a string and guesses its format, and the second one leaves it. -/
theorem applyField_twice_overridden :
    (∀ h ∈ standardPipeline.handlers, h ∈ standard.map (·.1)) ∧
    GuessesLast standardPipeline.handlers ∧
    (standardPipeline.applyField ⟨"Owner"⟩ overriddenField).property.format = some "email" ∧
    standardPipeline.applyField ⟨"Owner"⟩ (standardPipeline.applyField ⟨"Owner"⟩ overriddenField) =
      standardPipeline.applyField ⟨"Owner"⟩ overriddenField := by
  have hhandlers : standardPipeline.handlers = [declaredType, annotated, formatGuess] := rfl
  have hp : ∀ h ∈ standardPipeline.handlers, h ∈ standard.map (·.1) := by
    rw [hhandlers]
    simp [standard]
  have hlast : GuessesLast standardPipeline.handlers := by
    rw [hhandlers]
    simp [GuessesLast, declaredType, annotated, formatGuess]
  refine ⟨hp, hlast, ?_, (applyField_twice hp hlast ⟨"Owner"⟩ overriddenField).2⟩
  decide +kernel

/-- A format that is guessed before the field is classified is only there after a second run. -/
example :
    let p : Pipeline := ⟨[⟨1, formatGuess⟩, ⟨0, declaredType⟩]⟩
    let x : Property := { name := "email", declared := some ⟨"email", .kind .string, {}⟩ }
    (p.run ⟨"Owner"⟩ x).format = none ∧
      (p.run ⟨"Owner"⟩ (p.run ⟨"Owner"⟩ x)).format = some "email" := by
  decide +kernel

end Pipeline

end SchemaTree
