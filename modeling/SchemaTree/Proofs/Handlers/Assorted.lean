import SchemaTree.Proofs.Compiler.Legible

/-!
# The standard handlers in any number and order

The standard handlers can be registered with any priorities, some of them twice and others not at
all.  Whatever they do, **a field keeps the name and the declaration that it starts with, and it has
no bounds but those of its declaration** (`Handlers.Derived`).

* `Pipeline.mem_handlers_registerAll`: a pipeline holds no handlers but those registered.
* `Plain.describe_induction`: **what each standard handler keeps, a pipeline of them keeps.**
* `Plain.derived_describe`, `Compiler.isSome_kind_describe`: what compilers make of declared fields.
-/

namespace SchemaTree

/-! ## Registered handlers -/

namespace Pipeline

variable {p : Pipeline} {h h' : Handler} {priority : Int}

theorem mem_handlers_register (hm : h' ∈ (p.register h priority).handlers) :
    h' = h ∨ h' ∈ p.handlers := by
  obtain ⟨e, he, rfl⟩ := List.mem_map.mp hm
  rcases List.mem_append.mp he with he | he
  · exact Or.inr (List.mem_map_of_mem ((List.takeWhile_sublist _).subset he))
  · rcases List.mem_cons.mp he with rfl | he
    · exact Or.inl rfl
    · exact Or.inr (List.mem_map_of_mem ((List.dropWhile_sublist _).subset he))

/-- **A pipeline holds no handlers but those registered.** -/
theorem mem_handlers_registerAll {handlers : List (Handler × Int)}
    (hm : h ∈ (p.registerAll handlers).handlers) :
    h ∈ handlers.map (·.1) ∨ h ∈ p.handlers := by
  induction handlers generalizing p with
  | nil => exact Or.inr hm
  | cons e handlers ih =>
    rcases ih hm with hlater | hm
    · exact Or.inl (List.mem_cons_of_mem _ hlater)
    · rcases mem_handlers_register hm with rfl | hm
      · exact Or.inl List.mem_cons_self
      · exact Or.inr hm

end Pipeline

/-! ## What stays -/

namespace Handlers

/-- A property that has been derived from a declared field. -/
structure Derived (d : Descriptor) (x : Property) : Prop where
  name : x.name = d.name
  declared : x.declared = some d
  minimum : ∀ b, x.minimum = some b → d.annotations.minimum = some b
  maximum : ∀ b, x.maximum = some b → d.annotations.maximum = some b

variable {d : Descriptor} {x : Property}

theorem derived_initial (d : Descriptor) : Derived d { name := d.name, declared := some d } :=
  ⟨rfl, rfl, fun _ h => (nomatch h), fun _ h => (nomatch h)⟩

theorem Derived.runDeclaredType (h : Derived d x) : Derived d (runDeclaredType x) := by
  have hbounds : ∀ sh, (classify x sh).minimum = x.minimum ∧
      (classify x sh).maximum = x.maximum := by
    intro sh
    unfold classify
    split <;> exact ⟨rfl, rfl⟩
  rw [Handlers.runDeclaredType, h.declared]
  constructor
  case name => rw [name_classify, h.name]
  case declared => rw [declared_classify, h.declared]
  case minimum =>
    rw [(hbounds d.shape).1]
    exact h.minimum
  case maximum =>
    rw [(hbounds d.shape).2]
    exact h.maximum

theorem object_classify_cases (x : Property) (sh : Shape) :
    (classify x sh).object = shapeObject sh ∨ (classify x sh).object = x.object := by
  unfold classify
  split
  · exact Or.inr rfl
  · exact Or.inl rfl
  · exact Or.inr rfl
  · exact Or.inl rfl
  · exact Or.inr rfl

theorem bound_of_orElse {stated bound : Option Double}
    (h : ∀ b, bound = some b → stated = some b) :
    ∀ b, (stated <|> bound) = some b → stated = some b := by
  intro b hb
  cases stated with
  | some a => exact hb
  | none => exact h b hb

theorem Derived.runAnnotated (h : Derived d x) : Derived d (runAnnotated x) := by
  rw [Handlers.runAnnotated, h.declared]
  exact ⟨h.name, h.declared, bound_of_orElse h.minimum, bound_of_orElse h.maximum⟩

theorem Derived.runFormatGuess (h : Derived d x) : Derived d (runFormatGuess x) := by
  unfold Handlers.runFormatGuess
  split
  · exact h
  · exact ⟨h.name, h.declared, h.minimum, h.maximum⟩

end Handlers

/-! ## Compilers -/

namespace Compiler

/-- The compiler of a catalog with handlers that are registered one after the other. -/
def withHandlers (catalog : Catalog) (base : String) (options : CompilerOptions)
    (handlers : List (Handler × Int)) : Compiler :=
  { ofCatalog catalog base options with pipeline := Pipeline.registerAll {} handlers }

/-- A compiler whose properties start from a name, and whose handlers are standard ones. -/
structure Plain (c : Compiler) : Prop where
  newProperty : ∀ name, c.newProperty name = { name }
  handlers : ∀ h ∈ c.pipeline.handlers, h ∈ Handlers.standard.map (·.1)

theorem plain_withHandlers (catalog : Catalog) (base : String) (options : CompilerOptions)
    {handlers : List (Handler × Int)}
    (hs : ∀ e ∈ handlers, e.1 ∈ Handlers.standard.map (·.1)) :
    (withHandlers catalog base options handlers).Plain := by
  refine ⟨fun _ => rfl, fun h hm => ?_⟩
  rcases Pipeline.mem_handlers_registerAll hm with hm | hm
  · obtain ⟨e, he, rfl⟩ := List.mem_map.mp hm
    exact hs e he
  · exact absurd hm List.not_mem_nil

variable {c : Compiler}

/-- **Every field that is described has a kind.** -/
theorem isSome_kind_describe (c : Compiler) (t : TypeId) (d : Descriptor) :
    (c.describe t d).kind.isSome = true := by
  rw [describe, withKind]
  split
  · rename_i k hk
    rw [hk]
    rfl
  · dsimp only
    cases (Handlers.runDeclaredType (c.describeRun t d).property).kind <;> rfl

/-- **What holds at first and is kept by each standard handler holds of what is described**, if the
kind does not matter. -/
theorem Plain.describe_induction (h : c.Plain) (t : TypeId) (d : Descriptor) {P : Property → Prop}
    (initial : P { name := d.name, declared := some d })
    (declaredType : ∀ x, P x → P (Handlers.runDeclaredType x))
    (annotated : ∀ x, P x → P (Handlers.runAnnotated x))
    (formatGuess : ∀ x, P x → P (Handlers.runFormatGuess x))
    (kind : ∀ x k, P x → P { x with kind := k }) : P (c.describe t d) := by
  have hstep : ∀ handler ∈ Handlers.standard.map (·.1), ∀ x, P x → P (handler.run t x) := by
    intro handler hs x hx
    simp only [Handlers.standard, List.map_cons, List.map_nil, List.mem_cons, List.not_mem_nil,
      or_false] at hs
    rcases hs with rfl | rfl | rfl
    · exact declaredType x hx
    · exact annotated x hx
    · exact formatGuess x hx
  have hfold : ∀ handlers : List Handler, (∀ handler ∈ handlers,
      handler ∈ Handlers.standard.map (·.1)) → ∀ x, P x →
        P (handlers.foldl (fun x handler => handler.run t x) x) := by
    intro handlers hs
    induction handlers with
    | nil => exact fun x hx => hx
    | cons handler handlers ih =>
      obtain ⟨hfirst, hrest⟩ := List.forall_mem_cons.mp hs
      exact fun x hx => ih hrest _ (hstep handler hfirst x hx)
  have hrun : P (c.describeRun t d).property := by
    rw [describeRun, Pipeline.apply_property, Pipeline.run, h.newProperty]
    exact hfold _ h.handlers _ initial
  rw [describe, withKind]
  split
  · exact hrun
  · exact kind _ _ (declaredType _ hrun)

/-- **What is described is derived from what is declared.** -/
theorem Plain.derived_describe (h : c.Plain) (t : TypeId) (d : Descriptor) :
    Handlers.Derived d (c.describe t d) :=
  h.describe_induction t d (Handlers.derived_initial d) (fun _ => Handlers.Derived.runDeclaredType)
    (fun _ => Handlers.Derived.runAnnotated) (fun _ => Handlers.Derived.runFormatGuess)
    fun _ _ hx => ⟨hx.name, hx.declared, hx.minimum, hx.maximum⟩

/-- **The type that a field refers to is the one in its declared shape.** -/
theorem Plain.object_describe (h : c.Plain) {t u : TypeId} {d : Descriptor}
    (hu : (c.describe t d).object = some u) : Handlers.shapeObject d.shape = some u := by
  have hobject := h.describe_induction t d (P := fun x => x.declared = some d ∧
    ∀ v, x.object = some v → Handlers.shapeObject d.shape = some v)
    ⟨rfl, fun _ hv => nomatch hv⟩ ?declaredType ?annotated ?formatGuess fun _ _ hx => hx
  case declaredType =>
    rintro x ⟨hdeclared, hx⟩
    rw [Handlers.runDeclaredType, hdeclared]
    refine ⟨(Handlers.declared_classify x d.shape).trans hdeclared, fun v hv => ?_⟩
    rcases Handlers.object_classify_cases x d.shape with ho | ho
    · exact ho.symm.trans hv
    · exact hx v (ho.symm.trans hv)
  case annotated =>
    rintro x ⟨hdeclared, hx⟩
    rw [Handlers.runAnnotated, hdeclared]
    refine ⟨hdeclared, fun v hv => ?_⟩
    dsimp only [Handlers.annotate] at hv
    split at hv
    · cases hv
    · exact hx v hv
  case formatGuess =>
    rintro x ⟨hdeclared, hx⟩
    exact ⟨(Handlers.declared_runFormatGuess x).trans hdeclared, fun v hv =>
      hx v ((Handlers.object_runFormatGuess x).symm.trans hv)⟩
  exact hobject.2 u hu

theorem Plain.keepsNames (h : c.Plain) : c.KeepsNames :=
  fun t d => (h.derived_describe t d).name

end Compiler

end SchemaTree
