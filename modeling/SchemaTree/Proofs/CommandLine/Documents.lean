import SchemaTree.Proofs.CommandLine.Jobs
import SchemaTree.Proofs.FirstFailure
import SchemaTree.Proofs.Glob.Search

/-!
# Documents

The document that a request asks for is drawn up from what is found at a place for files and nothing
else (`prepared`).  It does not matter for it where it goes.

* `Job.bind_ok`: two jobs succeed if the first one does, and the second one from there.
* `Job.Answers`: jobs that only ask and add to the log, and what they give, as a function of the
  state of the place.  Such jobs can be put together.
* `answers_document`: **to draw up a document changes nothing and prints nothing**, also if it fails
  in finding files, loading the catalog, compiling or checking.
-/

namespace SchemaTree.CommandLine

variable {σ α β : Type}

/-! ## Jobs that succeed -/

namespace Job

section

variable {t t' : Transcript} {s s' : σ}

theorem bind_ok {job : Job (StateM σ) α} {k : α → Job (StateM σ) β} {b : β}
    (h : ((job >>= k).outcome t).run s = ((.ok b, t'), s')) :
    ∃ a t₁ s₁, (job.outcome t).run s = ((.ok a, t₁), s₁) ∧
      ((k a).outcome t₁).run s₁ = ((.ok b, t'), s') := by
  rw [outcome_bind, StateT.run_bind] at h
  cases hfirst : (job.outcome t).run s with
  | mk r s₁ =>
    rw [hfirst] at h
    obtain ⟨result, t₁⟩ := r
    cases result with
    | error reasons => cases h
    | ok a => exact ⟨a, t₁, s₁, rfl, h⟩

theorem ask_ok {x : StateM σ α} {a : α} (h : ((ask x).outcome t).run s = ((.ok a, t'), s')) :
    x.run s = (a, s') ∧ t' = t := by
  rw [outcome_ask] at h
  cases h
  exact ⟨rfl, rfl⟩

theorem ofExcept_ok {x : Except Failure α} {a : α}
    (h : ((ofExcept x : Job (StateM σ) α).outcome t).run s = ((.ok a, t'), s')) :
    x = .ok a ∧ t' = t ∧ s' = s := by
  rw [outcome_ofExcept] at h
  cases h
  exact ⟨rfl, rfl, rfl⟩

end

end Job

/-! ## Jobs that ask -/

/-- A job asks if it adds to the log only, leaves the state, and gives what the state says. -/
def Job.Answers (job : Job (StateM σ) α) (answer : σ → Except Failure α) : Prop :=
  ∀ t s, ∃ records, (job.outcome t).run s = ((answer s, t.noted records), s)

theorem Transcript.noted_nil (t : Transcript) : t.noted [] = t := by
  rw [noted, List.append_nil]

theorem Transcript.noted_noted (t : Transcript) (before behind : Log) :
    (t.noted before).noted behind = t.noted (before ++ behind) := by
  rw [noted, noted, noted, List.append_assoc]

namespace Job.Answers

theorem ofExcept (x : Except Failure α) :
    (ofExcept x : Job (StateM σ) α).Answers fun _ => x := by
  intro t s
  refine ⟨[], ?_⟩
  rw [outcome_ofExcept, t.noted_nil]
  rfl

theorem pure (a : α) : (pure a : Job (StateM σ) α).Answers fun _ => .ok a := ofExcept (.ok a)

theorem throw (reasons : Failure) :
    (throw reasons : Job (StateM σ) α).Answers fun _ => .error reasons := ofExcept (.error reasons)

theorem note (records : Log) : (note records : Job (StateM σ) Unit).Answers fun _ => .ok () := by
  intro t s
  refine ⟨records, ?_⟩
  rw [outcome_note]
  rfl

theorem ask {x : StateM σ α} (h : ∀ s, (x.run s).2 = s) :
    (ask x).Answers fun s => .ok (x.run s).1 := by
  intro t s
  refine ⟨[], ?_⟩
  rw [outcome_ask, t.noted_nil]
  change ((Except.ok (x.run s).1, t), (x.run s).2) = _
  rw [h]

/-- **The second of two jobs is asked by what the first one says.** -/
theorem bind {job : Job (StateM σ) α} {k : α → Job (StateM σ) β} {answer : σ → Except Failure α}
    {next : α → σ → Except Failure β} (h : job.Answers answer) (hk : ∀ a, (k a).Answers (next a)) :
    (job >>= k).Answers fun s => answer s >>= (next · s) := by
  intro t s
  obtain ⟨before, hfirst⟩ := h t s
  rw [outcome_bind, StateT.run_bind, hfirst]
  dsimp only
  cases answer s with
  | error reasons => exact ⟨before, rfl⟩
  | ok a =>
    obtain ⟨behind, hsecond⟩ := hk a (t.noted before) s
    exact ⟨before ++ behind, by rw [← t.noted_noted]; exact hsecond⟩

theorem flatMapM {job : α → Job (StateM σ) (List β)} {answer : α → σ → Except Failure (List β)}
    (h : ∀ a, (job a).Answers (answer a)) (as : List α) :
    (as.flatMapM job).Answers fun s => as.flatMapM (answer · s) := by
  induction as with
  | nil => exact pure []
  | cons a as ih =>
    simp only [List.flatMapM_cons]
    exact (h a).bind fun bs => ih.bind fun cs => pure (bs ++ cs)

theorem mapM {job : α → Job (StateM σ) β} {answer : α → σ → β}
    (h : ∀ a, (job a).Answers fun s => .ok (answer a s)) (as : List α) :
    (as.mapM job).Answers fun s => .ok (as.map (answer · s)) := by
  induction as with
  | nil => exact pure []
  | cons a as ih =>
    rw [List.mapM_cons]
    exact (h a).bind fun b => ih.bind fun bs => pure (b :: bs)

end Job.Answers

/-! ## Loading a catalog -/

variable (env : Environment (StateM σ))

/-- What a search for a wildcard has found, unless it has failed or found nothing. -/
def matched (path : String) : Except Glob.Unlisted (List String) → Except Failure (List String)
  | .error unlisted => .error [resolveContext, unlisted.message]
  | .ok [] => .error [resolveContext, "glob pattern matched no files: " ++ path]
  | .ok paths => .ok paths

/-- The paths that a path or wildcard stands for, or why there are none. -/
def resolved (path : String) (s : σ) : Except Failure (List String) := do
  if isWildcard path then
    let quest ← (Glob.Quest.ofText path).mapError fun f => [resolveContext, f.message]
    matched path ((quest.run env.files).run.run s).1
  else return [path]

/-- The catalog that settings mean, or why there is none. -/
def loadedFrom (settings : Settings) (s : σ) : Except Failure Catalog := do
  let paths ← settings.catalog.flatMapM (resolved env · s)
  let sources := paths.map fun path => (path, ((env.files.read path).run s).1)
  (Catalog.ofFiles sources).1.mapError loadFailure

/-- The text of a schema, unless the schema is to be checked and malformed. -/
def presented (r : SchemaRequest) (schema : Schema) : Except Failure String :=
  if r.validate && !(Check.document env.rejection schema.toValue).isEmpty then
    .error ["schema for `" ++ r.aliasName ++ "` is malformed",
      Violation.summary (Check.document env.rejection schema.toValue)]
  else .ok schema.toValue.pretty

/-- **The document that a request asks for**, or why there is none: the catalog does not load, the
type does not compile, or the schema is malformed. -/
def prepared (r : SchemaRequest) (s : σ) : Except Failure String := do
  let catalog ← loadedFrom env r.settings s
  let schema ← ((r.settings.compiler catalog).compile r.aliasName).1.mapError fun e =>
    ["failed to compile `" ++ r.aliasName ++ "`", e.message]
  presented env r schema

variable {env}

theorem presented_eq_ok_iff {r : SchemaRequest} {schema : Schema} {text : String} :
    presented env r schema = .ok text ↔
      (r.validate = true → Check.document env.rejection schema.toValue = []) ∧
        schema.toValue.pretty = text := by
  rw [presented]
  split
  · rename_i h
    simp only [Bool.and_eq_true, Bool.not_eq_true', List.isEmpty_eq_false_iff] at h
    constructor
    · exact fun h => nomatch h
    · exact fun hfine => absurd (hfine.1 h.1) h.2
  · rename_i h
    simp only [Bool.and_eq_true, Bool.not_eq_true', List.isEmpty_eq_false_iff, not_and,
      Classical.not_not] at h
    exact ⟨fun htext => ⟨h, Except.ok.inj htext⟩, fun hfine => congrArg Except.ok hfine.2⟩

theorem prepared_eq_ok_iff {r : SchemaRequest} {s : σ} {text : String} :
    prepared env r s = .ok text ↔ ∃ catalog schema, loadedFrom env r.settings s = .ok catalog ∧
      ((r.settings.compiler catalog).compile r.aliasName).1 = .ok schema ∧
        (r.validate = true → Check.document env.rejection schema.toValue = []) ∧
          schema.toValue.pretty = text := by
  simp only [prepared, bind_ok_iff, mapError_ok_iff, presented_eq_ok_iff, exists_and_left]

variable (hfiles : env.files.Quiet)

include hfiles

theorem answers_resolvePath (path : String) :
    (resolvePath env path).Answers (resolved env path) := by
  unfold resolvePath resolved
  split
  · refine (Job.Answers.ofExcept _).bind fun quest => ?_
    have hmatched : ∀ result, (match result with
        | .error unlisted => throw [resolveContext, Glob.Unlisted.message unlisted]
        | .ok [] => throw [resolveContext, "glob pattern matched no files: " ++ path]
        | .ok paths => return paths : Job (StateM σ) (List String)).Answers
          fun _ => matched path result := by
      intro result
      cases result with
      | error unlisted => exact Job.Answers.throw _
      | ok paths =>
        cases paths with
        | nil => exact Job.Answers.throw _
        | cons p ps => exact Job.Answers.pure _
    exact (Job.Answers.ask (quest.run_state hfiles)).bind hmatched
  · exact Job.Answers.pure [path]

theorem answers_readSource (path : String) :
    (readSource env path).Answers fun s => .ok (path, ((env.files.read path).run s).1) :=
  (Job.Answers.ask (hfiles.read path)).bind fun content => Job.Answers.pure (path, content)

theorem answers_loadCatalog (settings : Settings) :
    (loadCatalog env settings).Answers (loadedFrom env settings) := by
  unfold loadCatalog loadedFrom
  refine (Job.Answers.flatMapM (answers_resolvePath hfiles) settings.catalog).bind fun paths => ?_
  have hbuild : ∀ sources : List SourceFile, (do
      Job.note (Catalog.ofFiles sources).2
      let catalog ← Job.ofExcept ((Catalog.ofFiles sources).1.mapError loadFailure)
      Job.note [catalogRecord catalog]
      return catalog : Job (StateM σ) Catalog).Answers
        fun _ => (Catalog.ofFiles sources).1.mapError loadFailure := by
    intro sources
    cases (Catalog.ofFiles sources).1 with
    | error e => exact (Job.Answers.note _).bind fun _ => Job.Answers.throw (loadFailure e)
    | ok catalog =>
      exact (Job.Answers.note _).bind fun _ =>
        (Job.Answers.note [catalogRecord catalog]).bind fun _ => Job.Answers.pure catalog
  exact (Job.Answers.mapM (answers_readSource hfiles) paths).bind hbuild

/-- **To draw up a document changes nothing and prints nothing.** -/
theorem answers_document (r : SchemaRequest) : (document env r).Answers (prepared env r) := by
  unfold document prepared
  refine (answers_loadCatalog hfiles r.settings).bind fun catalog => ?_
  have hpresent : ∀ schema : Schema, (do
      if r.validate then
        let violations := Check.document env.rejection schema.toValue
        if !violations.isEmpty then
          throw ["schema for `" ++ r.aliasName ++ "` is malformed", Violation.summary violations]
      return schema.toValue.pretty : Job (StateM σ) String).Answers
        fun _ => presented env r schema := by
    intro schema
    rw [presented]
    dsimp only
    cases r.validate with
    | false => exact Job.Answers.pure _
    | true =>
      cases (Check.document env.rejection schema.toValue).isEmpty with
      | true => exact Job.Answers.pure _
      | false => exact Job.Answers.throw _
  exact (Job.Answers.note compilerRecords).bind fun _ => (Job.Answers.note _).bind fun _ =>
    (Job.Answers.ofExcept _).bind hpresent

end SchemaTree.CommandLine
