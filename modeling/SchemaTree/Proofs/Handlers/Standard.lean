import SchemaTree.Proofs.Graph

/-!
# Compilers with the standard handlers

`Compiler.standard` is the compiler of any source with the standard handlers, in which headings
and properties start from nothing but a title and a name.  The compiler of a catalog is one of
them (`ofCatalog_eq_standard`).

* `Handlers.described_eq`: the whole property that the standard handlers make of a declared field.
* `describe_standard`: a compiler makes no other of it.  It has a kind, so nothing is left to
  classify afterwards.
* `target?_describe_standard`, `follows_standard`: **the references that such a compiler
  follows are those that the source declares.**
-/

namespace SchemaTree

/-! ## What the handlers do to a declared field -/

namespace Handlers

/-- The property of a declared field after the standard handlers. -/
def described (d : Descriptor) : Property :=
  runFormatGuess (annotate (classify { name := d.name, declared := some d } d.shape) d.annotations)

/-- The kind of a shape. -/
def shapeKind : Shape → Kind
  | .kind k => k
  | .entity _ => .object
  | .collection _ => .array

/-- The type in a shape that a property can refer to: **a collection inside another is not looked
into.** -/
def shapeObject : Shape → Option TypeId
  | .kind _ => none
  | .entity u => some u
  | .collection (.entity u) => some u
  | .collection _ => none

theorem shapeObject_eq_some {sh : Shape} {u : TypeId} :
    shapeObject sh = some u ↔ sh = .entity u ∨ sh = .collection (.entity u) := by
  cases sh with
  | kind k => simp [shapeObject]
  | entity v => simp [shapeObject]
  | collection sh => cases sh <;> simp [shapeObject]

@[simp] theorem name_classify (x : Property) (sh : Shape) : (classify x sh).name = x.name := by
  unfold classify
  split <;> rfl

@[simp] theorem declared_classify (x : Property) (sh : Shape) :
    (classify x sh).declared = x.declared := by
  unfold classify
  split <;> rfl

@[simp] theorem ignored_classify (x : Property) (sh : Shape) :
    (classify x sh).ignored = x.ignored := by
  unfold classify
  split <;> rfl

@[simp] theorem kind_classify (x : Property) (sh : Shape) :
    (classify x sh).kind = some (shapeKind sh) := by
  unfold classify
  split <;> rfl

theorem object_classify (x : Property) (hx : x.object = none) (sh : Shape) :
    (classify x sh).object = shapeObject sh := by
  unfold classify
  split
  · exact hx
  · rfl
  · exact hx
  · rfl
  · exact hx

@[simp] theorem name_runFormatGuess (x : Property) : (runFormatGuess x).name = x.name := by
  unfold runFormatGuess
  split <;> rfl

@[simp] theorem declared_runFormatGuess (x : Property) :
    (runFormatGuess x).declared = x.declared := by
  unfold runFormatGuess
  split <;> rfl

@[simp] theorem ignored_runFormatGuess (x : Property) :
    (runFormatGuess x).ignored = x.ignored := by
  unfold runFormatGuess
  split <;> rfl

@[simp] theorem kind_runFormatGuess (x : Property) : (runFormatGuess x).kind = x.kind := by
  unfold runFormatGuess
  split <;> rfl

@[simp] theorem object_runFormatGuess (x : Property) :
    (runFormatGuess x).object = x.object := by
  unfold runFormatGuess
  split <;> rfl

@[simp] theorem pattern_classify (x : Property) (sh : Shape) :
    (classify x sh).pattern = x.pattern := by
  unfold classify
  split <;> rfl

@[simp] theorem pattern_runFormatGuess (x : Property) :
    (runFormatGuess x).pattern = x.pattern := by
  unfold runFormatGuess
  split <;> rfl

variable (d : Descriptor)

@[simp] theorem name_described : (described d).name = d.name := by
  simp [described, annotate]

@[simp] theorem declared_described : (described d).declared = some d := by
  simp [described, annotate]

@[simp] theorem ignored_described : (described d).ignored = d.annotations.ignore := by
  simp [described, annotate]

@[simp] theorem pattern_described : (described d).pattern = d.annotations.pattern := by
  simp [described, annotate]

theorem kind_described :
    (described d).kind = some (d.annotations.kind.getD (shapeKind d.shape)) := by
  cases h : d.annotations.kind <;> simp [described, annotate, h]

/-- **An annotation with a primitive kind drops the type that a field refers to.** -/
theorem object_described :
    (described d).object =
      if (d.annotations.kind.map Kind.isPrimitive).getD false then none
      else shapeObject d.shape := by
  simp [described, annotate, object_classify]

/-- **A declared field has a target exactly if it is not ignored, its annotation does not make it a
primitive kind, and its shape is a type or a collection of that type.** -/
theorem target?_described (u : TypeId) :
    (described d).target? = some u ↔ d.annotations.ignore = false ∧
      (d.annotations.kind = none ∨ d.annotations.kind = some .object ∨
        d.annotations.kind = some .array) ∧
      (d.shape = .entity u ∨ d.shape = .collection (.entity u)) := by
  rw [← shapeObject_eq_some, Property.target?, ignored_described, kind_described,
    object_described]
  cases hi : d.annotations.ignore with
  | true => simp
  | false =>
    cases hk : d.annotations.kind with
    | some k => cases k <;> simp [Kind.isPrimitive]
    | none =>
      cases d.shape with
      | kind k => cases k <;> simp [shapeKind, shapeObject]
      | entity v => simp [shapeKind]
      | collection sh => simp [shapeKind]

theorem run_standardPipeline (owner : TypeId) (x : Property) :
    standardPipeline.run owner x = runFormatGuess (runAnnotated (runDeclaredType x)) := rfl

/-! ## All that the handlers make of a declared field -/

/-- The kind that a property of a shape gives for its items. -/
def shapeItems : Shape → Option Kind
  | .collection (.kind k) => some k
  | .collection (.collection _) => some .array
  | _ => none

theorem classify_eq (x : Property) (sh : Shape) :
    classify x sh = { x with
      kind := some (shapeKind sh)
      items := shapeItems sh <|> x.items
      object := shapeObject sh <|> x.object } := by
  unfold classify
  split <;> rfl

theorem runFormatGuess_eq (x : Property) :
    runFormatGuess x = { x with
      format := x.format <|> if x.kind = some .string then Format.guess x.name else none } := by
  have hsame : ∀ f, f = x.format → { x with format := f } = x := by
    rintro _ rfl
    rfl
  unfold runFormatGuess
  by_cases hf : x.format = none
  · by_cases hk : x.kind = some .string
    · simp [hf, hk]
    · simp [hf, hk, hsame]
  · obtain ⟨f, hf⟩ := Option.ne_none_iff_exists'.mp hf
    simp [hf, hsame]

/-- **The whole property of a declared field.** -/
theorem described_eq : described d =
    { name := d.name
      kind := some (d.annotations.kind.getD (shapeKind d.shape))
      items := shapeItems d.shape
      object := if (d.annotations.kind.map Kind.isPrimitive).getD false then none
        else shapeObject d.shape
      ignored := d.annotations.ignore
      required := d.annotations.required
      title := d.annotations.title
      description := d.annotations.description
      format := d.annotations.format <|>
        if d.annotations.kind.getD (shapeKind d.shape) = .string then Format.guess d.name else none
      minimum := d.annotations.minimum
      maximum := d.annotations.maximum
      minLength := d.annotations.minLength
      maxLength := d.annotations.maxLength
      pattern := d.annotations.pattern
      choices := d.annotations.choices.getD []
      fallback := d.annotations.fallback
      declared := some d } := by
  rw [described, runFormatGuess_eq, classify_eq]
  cases hk : d.annotations.kind <;> simp [annotate, hk]

end Handlers

/-! ## Compilers -/

namespace Compiler

/-- The compiler of a source with the standard handlers. -/
def standard (source : TypeSource) (identifier : String → String) (options : CompilerOptions) :
    Compiler where
  source := source
  identifier := identifier
  pipeline := Handlers.standardPipeline
  options := options

theorem ofCatalog_eq_standard (catalog : Catalog) (base : String) (options : CompilerOptions) :
    ofCatalog catalog base options = standard catalog.source (urlFor base) options := rfl

variable (source : TypeSource) (identifier : String → String) (options : CompilerOptions)

/-- **What a compiler with the standard handlers makes of a declared field.** -/
theorem describe_standard (owner : TypeId) (d : Descriptor) :
    (standard source identifier options).describe owner d = Handlers.described d := by
  have hrun : ((standard source identifier options).describeRun owner d).property =
      Handlers.described d := by
    rw [describeRun, Pipeline.apply_property]
    exact (Handlers.run_standardPipeline owner _).trans (by
      simp only [Handlers.described, Handlers.runDeclaredType, Handlers.runAnnotated,
        Handlers.declared_classify, standard])
  rw [describe, hrun, withKind, Handlers.kind_described]

/-- **A compiler with the standard handlers follows the references that its source declares.** -/
theorem follows_standard : (standard source identifier options).Follows = source.Refers := by
  funext r
  refine propext ⟨fun h => ?_, fun h => ?_⟩
  · have ht := h.target
    rw [describe_standard, Handlers.target?_described] at ht
    exact ⟨h.declared, ht.1, ht.2.1, ht.2.2⟩
  · refine ⟨h.declared, ?_⟩
    rw [describe_standard, Handlers.target?_described]
    exact ⟨h.live, h.kind, h.shape⟩

end Compiler

end SchemaTree
