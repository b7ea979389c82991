import SchemaTree.Handlers
import SchemaTree.Identifier
import SchemaTree.Schema
import SchemaTree.Text.Uppercase
import SchemaTree.TypeSource

/-!
# Compilers

A `Compiler` turns types of a source into schemas.  This module holds what all
ways of compiling share: the heading of the schema of a type, the property of a
declared field, and the flat schema of a type.

* `Compiler.describe`: **every field that comes out has a kind**, whatever the
  handlers do: one without is classified by its declaration, or else is `any`.
* `Compiler.flat`: a schema of one level, in which every field that refers to a
  type is deferred.

Whatever is compiled leaves a `Trace`: the types that were introspected and the
log records, in order, also when compiling fails.
-/

namespace SchemaTree

/-- What is done about references that had to be deferred. -/
inductive CyclePolicy where
  | reference
  | flatten
  deriving DecidableEq, Repr

/-- The name of a policy. -/
def CyclePolicy.name : CyclePolicy → String
  | reference => "Reference"
  | flatten => "Flatten"

/-- The meta-schema of documents if none is given. -/
def defaultMetaSchema : String := "http://json-schema.org/draft-03/schema#"

/-- The options of a compiler. -/
structure CompilerOptions where
  maxDepth : Nat := 64
  metaSchema : String := defaultMetaSchema
  policy : CyclePolicy := .reference
  deriving Repr

/-- A source of types, with all that decides how their schemas look. -/
structure Compiler where
  source : TypeSource
  identifier : String → String := urlFor defaultBase
  pipeline : Pipeline := {}
  options : CompilerOptions := {}
  /-- The heading that a schema with a title starts from. -/
  newHeading : String → Heading := fun title => { title }
  /-- The property that a field with a name starts from. -/
  newProperty : String → Property := fun name => { name }

/-- What compiling leaves behind besides its result. -/
structure Trace where
  calls : List TypeId := []
  log : Log := []

/-- A result, or why there is none, and the trace. -/
abbrev Outcome (α : Type) := Except CompileError α × Trace

/-- Computations that leave a trace. -/
abbrev Traced := ExceptT CompileError (StateM Trace)

/-- Adds records to the log. -/
def Traced.note (records : Log) : Traced Unit :=
  modify fun t => { t with log := t.log ++ records }

/-- Runs a computation from a trace. -/
def Traced.outcome {α : Type} (m : Traced α) (t : Trace) : Outcome α := m.run.run t

namespace Compiler

/-- The compiler of a catalog with the standard handlers. -/
def ofCatalog (catalog : Catalog) (base : String) (options : CompilerOptions) : Compiler where
  source := catalog.source
  identifier := urlFor base
  pipeline := Handlers.standardPipeline
  options := options

/-- The heading of the schema of a type. -/
def heading (c : Compiler) (aliasName : String) (t : TypeId) : Heading :=
  let h := c.newHeading (Text.capitalize aliasName)
  { h with
    id := some (c.identifier aliasName)
    metaSchema := some c.options.metaSchema
    kind := .object
    description := c.source.description t <|> h.description }

/-- The run of the handlers over a declared field. -/
def describeRun (c : Compiler) (owner : TypeId) (d : Descriptor) : Pipeline.Run :=
  c.pipeline.apply owner { c.newProperty d.name with declared := some d }

/-- A property that has a kind. -/
def withKind (p : Property) : Property :=
  match p.kind with
  | some _ => p
  | none =>
    let q := Handlers.runDeclaredType p
    { q with kind := q.kind <|> some .any }

/-- The property of a declared field. -/
def describe (c : Compiler) (owner : TypeId) (d : Descriptor) : Property :=
  withKind (c.describeRun owner d).property

/-- The declared fields of a type. -/
def introspect (c : Compiler) (t : TypeId) : Traced (List Descriptor) := do
  modify fun trace => { trace with calls := trace.calls ++ [t] }
  match c.source.fields t with
  | .ok fields => return fields
  | .error reason => throw (.introspection t reason)

/-- The identifier of the schema of a type. -/
def referenceTo (c : Compiler) (t : TypeId) : String := c.identifier (c.source.aliasFor t)

/-! ## Flat schemas -/

/-- The field of a flat schema, unless it is ignored. -/
def flatField (c : Compiler) (owner : TypeId) (d : Descriptor) : Option Field :=
  let p := c.describe owner d
  if p.ignored then none
  else
    match p.target? with
    | some target => some (.mk p (.deferred (c.referenceTo target)))
    | none => some (.ofProperty p)

/-- The schema of a type in which all references are deferred. -/
def flat (c : Compiler) (t : TypeId) : Traced Schema := do
  let fields ← c.introspect t
  Traced.note (fields.flatMap fun d => (c.describeRun t d).log)
  return .mk (c.heading (c.source.aliasFor t) t) (fields.filterMap (c.flatField t))

end Compiler

end SchemaTree
