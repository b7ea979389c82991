import SchemaTree.Log
import SchemaTree.Property

/-!
# Pipelines of handlers

A `Handler` changes the property of a field.  A `Pipeline` holds handlers with
priorities; **a handler is put behind all of equal or higher priority**, so the
pipeline is always in stable order of falling priority.

`Pipeline.apply` runs the handlers over a property, all of them, whatever they
do to it.  A handler may ask for further handlers to be registered while it runs;
they are registered at once, but **a run goes through the handlers that were there
when it began**.
-/

namespace SchemaTree

/-- A step of a pipeline: how it changes a property, and what it logs and registers on the way. -/
structure Handler where
  name : String
  run : TypeId → Property → Property
  notes : TypeId → Property → Log := fun _ _ => []
  registers : TypeId → Property → List (Handler × Int) := fun _ _ => []

/-- The handler that does nothing. -/
instance : Inhabited Handler := ⟨{ name := "", run := fun _ x => x }⟩

/-- A registered handler. -/
structure Registration where
  priority : Int
  handler : Handler

/-- Handlers in the order in which they run. -/
structure Pipeline where
  entries : List Registration := []

namespace Pipeline

/-- Puts a handler behind all of equal or higher priority. -/
def register (p : Pipeline) (handler : Handler) (priority : Int) : Pipeline :=
  { entries := p.entries.takeWhile (priority ≤ ·.priority) ++
      ⟨priority, handler⟩ :: p.entries.dropWhile (priority ≤ ·.priority) }

/-- Registers handlers one after the other. -/
def registerAll (p : Pipeline) (handlers : List (Handler × Int)) : Pipeline :=
  handlers.foldl (fun p (h, priority) => p.register h priority) p

/-- The record about a registration. -/
def registrationRecord (handler : Handler) (priority : Int) : Record :=
  ⟨.debug, "registering field handler " ++ handler.name ++ " at priority " ++ toString priority⟩

/-- The handlers in the order in which they run. -/
def handlers (p : Pipeline) : List Handler := p.entries.map (·.handler)

/-- The property that a run over all handlers leaves. -/
def run (p : Pipeline) (owner : TypeId) (x : Property) : Property :=
  p.handlers.foldl (fun x h => h.run owner x) x

/-- The record about a finished run. -/
def finishRecord (owner : TypeId) (x : Property) : Record :=
  ⟨.trace, owner.name ++ "." ++ x.name ++ ": type=" ++ optionLabel Kind.label x.kind ++
    " object=" ++ optionLabel TypeId.label x.object ++ " ignored=" ++
    (if x.ignored then "true" else "false")⟩

/-- A run in progress, or its result. -/
structure Run where
  property : Property
  pipeline : Pipeline
  log : Log

/-- Runs one handler. -/
def Run.step (owner : TypeId) (r : Run) (h : Handler) : Run :=
  let asked := h.registers owner r.property
  { property := h.run owner r.property
    pipeline := r.pipeline.registerAll asked
    log := r.log ++ h.notes owner r.property ++
      asked.map fun (h, priority) => registrationRecord h priority }

/-- Runs all handlers of a pipeline over a property. -/
def apply (p : Pipeline) (owner : TypeId) (x : Property) : Run :=
  let r := p.handlers.foldl (Run.step owner) ⟨x, p, []⟩
  { r with log := r.log ++ [finishRecord owner r.property] }

/-- The handlers with their priorities, for people who debug. -/
def label (p : Pipeline) : String :=
  let entry (e : Registration) : String :=
    "(" ++ toString e.priority ++ ", " ++ Text.quoted e.handler.name ++ ")"
  "[" ++ ", ".intercalate (p.entries.map entry) ++ "]"

theorem foldl_step_property (owner : TypeId) (hs : List Handler) (r : Run) :
    (hs.foldl (Run.step owner) r).property = hs.foldl (fun x h => h.run owner x) r.property := by
  induction hs generalizing r with
  | nil => rfl
  | cons h hs ih => exact ih _

/-- **What a run leaves depends on the handlers only that were there when it began.** -/
theorem apply_property (p : Pipeline) (owner : TypeId) (x : Property) :
    (p.apply owner x).property = p.run owner x :=
  foldl_step_property owner p.handlers ⟨x, p, []⟩

end Pipeline

end SchemaTree
