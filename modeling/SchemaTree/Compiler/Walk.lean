import SchemaTree.Compiler

/-!
# Walking the graph of types

A schema tree is built by a depth-first walk from one type.  The walk carries a
`Session`:

* the *path*: the types that are being built, the innermost first.  **Meeting one
  of them again is a cycle**: the field is deferred and not followed.
* the *cache*: the finished schemas by type, which every later reference shares.
* the *pending* types: those referenced while they were being built, each with
  the depth of its first deferral.

A type on the path is never in the cache, so looking into the cache first hides
no cycle.  The walk is bounded by the depth that is left; a session survives a
walk that fails.
-/

namespace SchemaTree

/-- What a walk knows. -/
structure Session where
  root : Option TypeId := none
  path : List TypeId := []
  cache : List (TypeId × Schema) := []
  pending : List (TypeId × Nat) := []
  trace : Trace := {}

namespace Session

/-- The finished schema of a type. -/
def cached? (s : Session) (t : TypeId) : Option Schema := s.cache.lookup t

/-- Begins to build a type that is not on the path; the first one is the root. -/
def enter (s : Session) (t : TypeId) : Session :=
  { s with root := s.root <|> some t, path := t :: s.path }

/-- Ends building the innermost type. -/
def leave (s : Session) : Session := { s with path := s.path.tail }

/-- Keeps the finished schema of a type. -/
def keep (s : Session) (t : TypeId) (schema : Schema) : Session :=
  { s with cache := (t, schema) :: s.cache }

/-- Marks a type as pending; the first depth counts. -/
def defer (s : Session) (t : TypeId) (depth : Nat) : Session :=
  if s.pending.any (·.1 = t) then s else { s with pending := s.pending ++ [(t, depth)] }

/-- Adds records to the log. -/
def note (s : Session) (records : Log) : Session :=
  { s with trace := { s.trace with log := s.trace.log ++ records } }

/-- The record about a field that closes a cycle. -/
def cycleRecord (s : Session) (t : TypeId) (field : String) (depth : Nat) : Record :=
  ⟨.debug, "cycle under `" ++ (s.root.map TypeId.name).getD "" ++ "`: `" ++ t.name ++
    "` is still being built, deferring field `" ++ field ++ "` at depth " ++ toString depth⟩

end Session

/-- Steps of a walk; the session survives a failure. -/
abbrev Walk := ExceptT CompileError (StateM Session)

namespace Walk

/-- A computation that only leaves a trace, as a step of a walk. -/
def traced {α : Type} (m : Traced α) : Walk α := do
  let s ← get
  let (result, trace) := m.outcome s.trace
  set { s with trace }
  match result with
  | .ok a => return a
  | .error e => throw e

/-- Builds a type: it is on the path meanwhile, and off it afterwards, whatever happens. -/
def building {α : Type} (t : TypeId) (body : Walk α) : Walk α :=
  fun s =>
    let (result, s') := body (s.enter t)
    (result, s'.leave)

end Walk

namespace Compiler

/-- Compiles a type under its alias at a depth. -/
abbrev Expansion := String → TypeId → Nat → Walk Schema

/-- The link of a field of a type at a depth; `expand` compiles types that are neither finished nor
being built. -/
def link (c : Compiler) (expand : Expansion) (depth : Nat) (field : String) (target : TypeId) :
    Walk Link := do
  let s ← get
  match s.cached? target with
  | some schema => return .nested schema
  | none =>
    if target ∈ s.path then
      set ((s.note [s.cycleRecord target field depth]).defer target depth)
      return .deferred (c.referenceTo target)
    else
      let schema ← expand (c.source.aliasFor target) target (depth + 1)
      modify (·.keep target schema)
      return .nested schema

/-- The field of a schema, unless it is ignored. -/
def buildField (c : Compiler) (expand : Expansion) (owner : TypeId) (depth : Nat)
    (d : Descriptor) : Walk (Option Field) := do
  let p := c.describe owner d
  modify (·.note (c.describeRun owner d).log)
  if p.ignored then return none
  match p.target? with
  | some target => return some (.mk p (← c.link expand depth p.name target))
  | none => return some (.ofProperty p)

/-- The fields of a schema. -/
def buildFields (c : Compiler) (expand : Expansion) (owner : TypeId) (depth : Nat) :
    List Descriptor → Walk (List Field)
  | [] => return []
  | d :: ds => do
    let field ← c.buildField expand owner depth d
    let fields ← c.buildFields expand owner depth ds
    return field.toList ++ fields

/-- The schema of a type. -/
def buildSchema (c : Compiler) (expand : Expansion) (aliasName : String) (t : TypeId)
    (depth : Nat) : Walk Schema := do
  let descriptors ← Walk.traced (c.introspect t)
  return .mk (c.heading aliasName t) (← c.buildFields expand t depth descriptors)

/-- Compiles a type, if `room` is left below the limit of depth. -/
def compileType (c : Compiler) : (room : Nat) → Expansion
  | 0, aliasName, _, depth => throw (.depthExceeded aliasName depth c.options.maxDepth)
  | room + 1, aliasName, t, depth =>
    Walk.building t (c.buildSchema (c.compileType room) aliasName t depth)

/-- A schema, and the types that were deferred, each with the depth of its first deferral. -/
structure Report where
  schema : Schema
  pending : List (TypeId × Nat)

/-- The record about the begin of a compilation. -/
def beginRecord (aliasName : String) (t : TypeId) : Record :=
  ⟨.debug, "compiling `" ++ aliasName ++ "` (" ++ t.name ++ ")"⟩

/-- The record about a finished compilation. -/
def endRecord (aliasName : String) (s : Session) : Record :=
  ⟨.debug, "compiled `" ++ aliasName ++ "`: " ++ toString s.cache.length ++
    " shared subtree(s), " ++ toString s.pending.length ++ " deferred type(s)"⟩

/-- The walk from a type; nothing is compiled deeper than the limit. -/
def walkFrom (c : Compiler) (aliasName : String) (t : TypeId) :
    Except CompileError Schema × Session :=
  (c.compileType (c.options.maxDepth + 1) aliasName t 0).run.run
    (({} : Session).note [beginRecord aliasName t])

/-- Compiles the type of an alias; what is deferred stays so and is reported. -/
def report (c : Compiler) (aliasName : String) : Outcome Report :=
  match c.source.resolve aliasName with
  | none => (.error (.unknownAlias aliasName), {})
  | some t =>
    match c.walkFrom aliasName t with
    | (.error e, s) => (.error e, s.trace)
    | (.ok schema, s) => (.ok ⟨schema, s.pending⟩, (s.note [endRecord aliasName s]).trace)

end Compiler

end SchemaTree
