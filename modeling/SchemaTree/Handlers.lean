import SchemaTree.Format
import SchemaTree.Pipeline

/-!
# The standard handlers

* `declaredType` classifies a field from the shape it is declared with.
* `annotated` writes the annotations of the declaration over the property; a
  primitive kind that overrides the declared one drops the reference to a type.
* `formatGuess` gives a string field without a format the one its name tells.

In the standard pipeline they run in this order.
-/

namespace SchemaTree.Handlers

/-! ## The declared shape -/

/-- Classifies a property from a shape. A collection of collections keeps the outer one only. -/
def classify (x : Property) : Shape → Property
  | .kind k => { x with kind := some k }
  | .entity target => { x with kind := some .object, object := some target }
  | .collection (.kind k) => { x with kind := some .array, items := some k }
  | .collection (.entity target) => { x with kind := some .array, object := some target }
  | .collection (.collection _) => { x with kind := some .array, items := some .array }

/-- Classifies a property from its declaration. -/
def runDeclaredType (x : Property) : Property :=
  match x.declared with
  | some d => classify x d.shape
  | none => x

/-- Classifies fields from their declaration. -/
def declaredType : Handler where
  name := "entity_schema::handlers::declared::DeclaredTypeHandler"
  run := fun _ x => runDeclaredType x

/-! ## Annotations -/

/-- Writes annotations over a property. -/
def annotate (x : Property) (a : Annotations) : Property :=
  { x with
    ignored := x.ignored || a.ignore
    kind := a.kind <|> x.kind
    object := if (a.kind.map Kind.isPrimitive).getD false then none else x.object
    required := x.required || a.required
    title := a.title <|> x.title
    description := a.description <|> x.description
    format := a.format <|> x.format
    minimum := a.minimum <|> x.minimum
    maximum := a.maximum <|> x.maximum
    minLength := a.minLength <|> x.minLength
    maxLength := a.maxLength <|> x.maxLength
    pattern := a.pattern <|> x.pattern
    choices := a.choices.getD x.choices
    fallback := a.fallback <|> x.fallback }

/-- Writes the annotations of the declaration over a property. -/
def runAnnotated (x : Property) : Property :=
  match x.declared with
  | some d => annotate x d.annotations
  | none => x

/-- The record about a field that is left out. -/
def annotationNotes (owner : TypeId) (x : Property) : Log :=
  match x.declared with
  | some d =>
    if d.annotations.ignore then
      [⟨.trace, owner.name ++ "." ++ x.name ++ ": ignored by annotation"⟩]
    else []
  | none => []

/-- Copies annotations onto fields. -/
def annotated : Handler where
  name := "entity_schema::handlers::annotations::AnnotationHandler"
  run := fun _ x => runAnnotated x
  notes := annotationNotes

/-! ## Formats -/

/-- Gives a string property without a format the one its name tells. -/
def runFormatGuess (x : Property) : Property :=
  if x.format.isSome || x.kind ≠ some .string then x
  else { x with format := Format.guess x.name }

/-- Guesses formats from names. -/
def formatGuess : Handler where
  name := "entity_schema::handlers::format::FormatGuessHandler"
  run := fun _ x => runFormatGuess x

/-! ## The standard pipeline -/

/-- The standard handlers with their priorities. -/
def standard : List (Handler × Int) :=
  [(declaredType, 100), (annotated, 50), (formatGuess, 10)]

/-- The pipeline of the standard handlers. -/
def standardPipeline : Pipeline := Pipeline.registerAll {} standard

end SchemaTree.Handlers
