import SchemaTree.CommandLine.Run

/-!
# Runs of jobs

A job is run from a transcript and leaves one behind, also when it fails (`Job.outcome`).  The
lemmas here say what single steps do to it and how steps follow each other, whatever the computation
is that answers questions about files.

* `Job.outcome_bind`: the second of two jobs goes on from the transcript of the first, if that one
  has not failed.
* `outcome_loadCatalog`: **literal paths are read one after the other, and a catalog comes of their
  contents only.**
-/

namespace SchemaTree.CommandLine

variable {m : Type → Type} [Monad m] {α β : Type}

/-- A transcript with more records in its log. -/
def Transcript.noted (t : Transcript) (records : Log) : Transcript :=
  { t with log := t.log ++ records }

/-- A transcript with a line more on the side. -/
def Transcript.warned (t : Transcript) (line : String) : Transcript :=
  { t with errors := t.errors ++ line ++ "\n" }

namespace Job

/-- The run of a job from a transcript. -/
def outcome (j : Job m α) (t : Transcript) : m (Except Failure α × Transcript) := j.run.run t

variable (t : Transcript)

theorem outcome_pure (a : α) : (pure a : Job m α).outcome t = pure (.ok a, t) := rfl

theorem outcome_throw (reasons : Failure) :
    (throw reasons : Job m α).outcome t = pure (.error reasons, t) := rfl

theorem outcome_ofExcept (x : Except Failure α) :
    (ofExcept x : Job m α).outcome t = pure (x, t) := by
  cases x <;> rfl

/-- What a job does after the end of another one. -/
def after (k : α → Job m β) : Except Failure α × Transcript → m (Except Failure β × Transcript)
  | (.ok a, t) => (k a).outcome t
  | (.error reasons, t) => pure (.error reasons, t)

theorem after_ok (k : α → Job m β) (a : α) : after k (.ok a, t) = (k a).outcome t := rfl

theorem after_error (k : α → Job m β) (reasons : Failure) :
    after k (.error reasons, t) = pure (.error reasons, t) := rfl

/-- **The second of two jobs goes on from where the first has ended**, unless it has failed. -/
theorem outcome_bind (j : Job m α) (k : α → Job m β) :
    (j >>= k).outcome t = j.outcome t >>= after k := by
  rw [outcome, ExceptT.run_bind, StateT.run_bind]
  refine bind_congr fun r => ?_
  obtain ⟨result, t'⟩ := r
  cases result <;> rfl

variable [LawfulMonad m]

theorem outcome_ask (a : m α) : (ask a).outcome t = (fun x => (.ok x, t)) <$> a := by
  simp [ask, outcome]

theorem outcome_modify (f : Transcript → Transcript) :
    (modify f : Job m PUnit).outcome t = pure (.ok ⟨⟩, f t) := by
  change (Except.ok <$> (modify f : StateT Transcript m PUnit)).run t = _
  simp

theorem outcome_note (records : Log) :
    (note records : Job m Unit).outcome t = pure (.ok (), t.noted records) :=
  outcome_modify t fun t => t.noted records

theorem outcome_printError (line : String) :
    (printError line : Job m Unit).outcome t = pure (.ok (), t.warned line) :=
  outcome_modify t fun t => t.warned line

theorem outcome_forM {job : α → Job m PUnit} {change : Transcript → α → Transcript}
    (h : ∀ a t, (job a).outcome t = pure (.ok ⟨⟩, change t a)) (as : List α) :
    (as.forM job).outcome t = pure (.ok ⟨⟩, as.foldl change t) := by
  induction as generalizing t with
  | nil => rfl
  | cons a as ih =>
    change (job a >>= fun _ => as.forM job).outcome t = _
    rw [outcome_bind, h, pure_bind]
    exact ih (change t a)

theorem outcome_mapM {job : α → Job m β} {answer : α → m β}
    (h : ∀ a t, (job a).outcome t = (fun b => (.ok b, t)) <$> answer a) (as : List α) :
    (as.mapM job).outcome t = (fun bs => (.ok bs, t)) <$> as.mapM answer := by
  induction as generalizing t with
  | nil => rw [List.mapM_nil, List.mapM_nil, outcome_pure, map_pure]
  | cons a as ih =>
    rw [List.mapM_cons, List.mapM_cons, outcome_bind, h, bind_map_left, map_bind]
    refine bind_congr fun b => ?_
    rw [after_ok, outcome_bind, ih, bind_map_left, map_bind]
    refine bind_congr fun bs => ?_
    rw [after_ok, outcome_pure, map_pure]

end Job

/-! ## Loading a catalog -/

variable (env : Environment m)

/-- What the file at a path says. -/
def readFile (path : String) : m SourceFile := (path, ·) <$> env.files.read path

variable [LawfulMonad m]

theorem flatMapM_resolvePath {paths : List String} (h : ∀ p ∈ paths, isWildcard p = false) :
    paths.flatMapM (resolvePath env) = pure paths := by
  induction paths with
  | nil => rfl
  | cons p paths ih =>
    obtain ⟨hp, hpaths⟩ := List.forall_mem_cons.mp h
    rw [List.flatMapM_cons, ih hpaths, resolvePath, hp]
    simp

theorem outcome_readSource (path : String) (t : Transcript) :
    (readSource env path).outcome t = (fun file => (.ok file, t)) <$> readFile env path := by
  rw [readSource, Job.outcome_bind, Job.outcome_ask, bind_map_left, readFile, Functor.map_map,
    map_eq_pure_bind]
  rfl

/-- **What comes of the files of a catalog**, from a transcript. -/
def loaded (files : List SourceFile) (t : Transcript) : Except Failure Catalog × Transcript :=
  match Catalog.ofFiles files with
  | (.ok catalog, log) => (.ok catalog, (t.noted log).noted [catalogRecord catalog])
  | (.error e, log) => (.error (loadFailure e), t.noted log)

/-- **Literal paths are read one after the other, and a catalog comes of their contents only.** -/
theorem outcome_loadCatalog {s : Settings} (h : ∀ p ∈ s.catalog, isWildcard p = false)
    (t : Transcript) :
    (loadCatalog env s).outcome t =
      (fun files => loaded files t) <$> s.catalog.mapM (readFile env) := by
  rw [loadCatalog, flatMapM_resolvePath env h, pure_bind, Job.outcome_bind,
    Job.outcome_mapM t (outcome_readSource env), bind_map_left, map_eq_pure_bind]
  refine bind_congr fun files => ?_
  rw [Job.after_ok, loaded, Job.outcome_bind, Job.outcome_note, pure_bind, Job.after_ok,
    Job.outcome_bind, Job.outcome_ofExcept, pure_bind]
  cases Catalog.ofFiles files with
  | mk result log =>
    cases result with
    | error e =>
      have hmap : (Except.error e : Except CatalogError Catalog).mapError loadFailure =
          .error (loadFailure e) := rfl
      rw [hmap, Job.after_error]
    | ok catalog =>
      have hmap : (Except.ok catalog : Except CatalogError Catalog).mapError loadFailure =
          .ok catalog := rfl
      rw [hmap, Job.after_ok, Job.outcome_bind, Job.outcome_note, pure_bind]
      rfl

end SchemaTree.CommandLine
