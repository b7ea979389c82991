import SchemaTree.Proofs.Pipeline.Order

/-!
# What happens to a pipeline

Handlers are registered, and runs go over properties (`Event`).  While a handler is running, more
handlers may be registered: those that it asks for whenever it runs, and others besides, by a
handler that remembers what it did before, by a run within the run, or from outside.

* `through_eq`: a run calls the handlers that it is given one after the other, and nothing that is
  registered meanwhile changes which ones.
* `after_eq`: a pipeline is what its registrations make of it, whoever asked for them.
* `stable_snapshots`: **a pipeline always holds all registrations in stable order, and each run goes
  through the handlers that were there when it began**, once each and in order.
-/

namespace SchemaTree.Pipeline

/-! ## Runs -/

/-- Handlers that are registered at the places of a run besides those that its handlers always ask
for. -/
abbrev Others := Nat → List (Handler × Int)

/-- Runs one handler, while others are registered. -/
def Run.stepAmid (owner : TypeId) (others : List (Handler × Int)) (r : Run) (h : Handler) : Run :=
  let r := r.step owner h
  { r with
    pipeline := r.pipeline.registerAll others
    log := r.log ++ others.map fun (h, priority) => registrationRecord h priority }

/-- Runs handlers one after the other, while others are registered. -/
def Run.through (owner : TypeId) : Others → List Handler → Run → Run
  | _, [], r => r
  | others, h :: hs, r =>
    Run.through owner (fun i => others (i + 1)) hs (r.stepAmid owner (others 0) h)

/-- Runs all handlers of a pipeline over a property, while others are registered. -/
def applyAmid (p : Pipeline) (owner : TypeId) (x : Property) (others : Others) : Run :=
  let r := Run.through owner others p.handlers ⟨x, p, []⟩
  { r with log := r.log ++ [finishRecord owner r.property] }

/-- The calls of a run: each handler, and the property that it is given. -/
def calls (owner : TypeId) : List Handler → Property → List (Handler × Property)
  | [], _ => []
  | h :: hs, x => (h, x) :: calls owner hs (h.run owner x)

/-- All that is registered in the course of a run, in order. -/
def requests (owner : TypeId) (others : Others) (hs : List Handler) (x : Property) :
    List (Handler × Int) :=
  ((calls owner hs x).mapIdx fun i (h, y) => h.registers owner y ++ others i).flatten

/-- The records about a run, in order. -/
def records (owner : TypeId) (others : Others) (hs : List Handler) (x : Property) : Log :=
  ((calls owner hs x).mapIdx fun i (h, y) => h.notes owner y ++
    (h.registers owner y ++ others i).map fun (h, priority) => registrationRecord h priority).flatten

variable (owner : TypeId) (others : Others)

theorem requests_cons (h : Handler) (hs : List Handler) (x : Property) :
    requests owner others (h :: hs) x = (h.registers owner x ++ others 0) ++
      requests owner (fun i => others (i + 1)) hs (h.run owner x) := by
  simp [requests, calls, List.mapIdx_cons]

theorem records_cons (h : Handler) (hs : List Handler) (x : Property) :
    records owner others (h :: hs) x = h.notes owner x ++
      ((h.registers owner x ++ others 0).map fun (h, priority) => registrationRecord h priority) ++
      records owner (fun i => others (i + 1)) hs (h.run owner x) := by
  simp [records, calls, List.mapIdx_cons]

theorem map_fst_calls (hs : List Handler) (x : Property) : (calls owner hs x).map (·.1) = hs := by
  induction hs generalizing x with
  | nil => rfl
  | cons h hs ih => exact congrArg (h :: ·) (ih _)

/-- **All that a run does is told by its calls.** -/
theorem through_eq (hs : List Handler) (r : Run) : r.through owner others hs =
    { property := hs.foldl (fun x h => h.run owner x) r.property
      pipeline := r.pipeline.registerAll (requests owner others hs r.property)
      log := r.log ++ records owner others hs r.property } := by
  induction hs generalizing r others with
  | nil => simp [Run.through, requests, records, calls, registerAll]
  | cons h hs ih =>
    rw [Run.through, ih, requests_cons, records_cons, registerAll_append, registerAll_append]
    simp [Run.stepAmid, Run.step]

theorem through_nothing (hs : List Handler) (r : Run) :
    r.through owner (fun _ => []) hs = hs.foldl (Run.step owner) r := by
  induction hs generalizing r with
  | nil => rfl
  | cons h hs ih =>
    have hstep : r.stepAmid owner [] h = r.step owner h := by
      simp [Run.stepAmid, registerAll]
    rw [Run.through, hstep]
    exact ih _

theorem applyAmid_nothing (p : Pipeline) (x : Property) :
    p.applyAmid owner x (fun _ => []) = p.apply owner x := by
  rw [applyAmid, through_nothing, apply]

theorem applyAmid_eq (p : Pipeline) (x : Property) : p.applyAmid owner x others =
    { property := p.run owner x
      pipeline := p.registerAll (requests owner others p.handlers x)
      log := records owner others p.handlers x ++ [finishRecord owner (p.run owner x)] } := by
  rw [applyAmid, through_eq]
  rfl

/-! ## Events -/

/-- What can happen to a pipeline: a handler is registered, or a run goes over a property, while
others are registered. -/
inductive Event where
  | register (handler : Handler) (priority : Int)
  | apply (owner : TypeId) (x : Property) (others : Others)

/-- The pipeline behind an event. -/
def Event.after (p : Pipeline) : Event → Pipeline
  | register h priority => p.register h priority
  | apply owner x others => (p.applyAmid owner x others).pipeline

/-- All that is registered in the course of an event. -/
def Event.registrations (p : Pipeline) : Event → List (Handler × Int)
  | register h priority => [(h, priority)]
  | apply owner x others => requests owner others p.handlers x

/-- The pipeline behind events. -/
def after (p : Pipeline) (es : List Event) : Pipeline := es.foldl Event.after p

/-- All that is registered in the course of events, in order. -/
def registrations (p : Pipeline) : List Event → List (Handler × Int)
  | [] => []
  | e :: es => e.registrations p ++ registrations (e.after p) es

theorem Event.after_eq (p : Pipeline) (e : Event) :
    e.after p = p.registerAll (e.registrations p) := by
  cases e with
  | register h priority => rfl
  | apply owner x others => rw [Event.after, applyAmid_eq, Event.registrations]

/-- **A pipeline is what its registrations make of it**, whoever asked for them. -/
theorem after_eq (p : Pipeline) (es : List Event) :
    p.after es = p.registerAll (p.registrations es) := by
  induction es generalizing p with
  | nil => rfl
  | cons e es ih =>
    rw [registrations, registerAll_append, ← Event.after_eq]
    exact ih (e.after p)

/-- The pipeline that comes of events, where there was none before. -/
def made (es : List Event) : Pipeline := after {} es

/-- All that has been registered in a pipeline that comes of events. -/
def registered (es : List Event) : List Registration := entriesOf (registrations {} es)

theorem entries_made (es : List Event) : (made es).entries = stableOrder (registered es) := by
  rw [made, after_eq, entries_registerAll, registered]

/-- **A pipeline always holds all registrations in stable order, and a run sees a snapshot.**
Halving finds the place of every handler.  Each run calls the handlers that were there when it
began, once each and in order, and its calls tell all that it does, whatever is registered
meanwhile; in the middle of a run, too, the pipeline holds in stable order what has been registered
until then. -/
theorem stable_snapshots (es : List Event) :
    (made es).entries = stableOrder (registered es) ∧
    (made es).handlers = (stableOrder (registered es)).map (·.handler) ∧
    (∀ h priority, (made es).register h priority =
      ⟨(made es).entries.insertIdx (place priority (made es).entries) ⟨priority, h⟩⟩) ∧
    ∀ owner x,
      (calls owner (made es).handlers x).map (·.1) = (made es).handlers ∧
      (made es).apply owner x = (made es).applyAmid owner x (fun _ => []) ∧
      ∀ others,
        (made es).applyAmid owner x others =
          { property := (made es).run owner x
            pipeline := (made es).registerAll (requests owner others (made es).handlers x)
            log := records owner others (made es).handlers x ++
              [finishRecord owner ((made es).run owner x)] } ∧
        ∀ n, (Run.through owner others ((made es).handlers.take n) ⟨x, made es, []⟩).pipeline.entries =
          stableOrder (registered es ++
            entriesOf (requests owner others ((made es).handlers.take n) x)) := by
  have hfalling : Falling (made es).entries := entries_made es ▸ falling_stableOrder _
  refine ⟨entries_made es, ?handlers, ?place, fun owner x => ⟨?calls, ?apply, fun others => ?run⟩⟩
  case handlers => rw [handlers, entries_made]
  case place => exact fun h priority => register_eq_insertIdx h priority hfalling
  case calls => exact map_fst_calls owner _ x
  case apply => exact (applyAmid_nothing owner _ x).symm
  case run =>
    refine ⟨applyAmid_eq owner others _ x, fun n => ?_⟩
    rw [through_eq]
    exact registerAll_stable _ (entries_made es)

/-- A handler that only has a name. -/
def named (name : String) : Handler := { name, run := fun _ x => x }

/-- What a handler registers takes part from the next run on. -/
example :
    let late : Handler := { named "r" with registers := fun _ _ => [(named "late", 0)] }
    let run := Event.apply ⟨"T"⟩ { name := "x" } fun _ => []
    [made [.register (named "b") 5, .register late 10, .register (named "a") 10],
      made [.register (named "b") 5, .register late 10, .register (named "a") 10, run]].map
        (·.handlers.map (·.name)) = [["r", "a", "b"], ["r", "a", "b", "late"]] := rfl

end SchemaTree.Pipeline
