import SchemaTree.Proofs.CommandLine.Documents
import SchemaTree.Proofs.FileTree.Changes

/-!
# Requests for schemas

A request for a schema draws up its document first and then prints or writes it (`run_schema`).

* `writeOut_ok`: **a document that is written can be read**, and nothing else changes but
  directories that have been missing above it.
* `schema_atomic`: **a request without a document leaves everything as it is, and with one, the file
  has what is printed otherwise.**
-/

namespace SchemaTree

/-- The paths of the directories in which a path lies, as far as they have names. -/
def Path.above (path : String) : List String :=
  match Path.parent? path with
  | none => []
  | some parent => Path.lineage parent

namespace CommandLine

variable {σ : Type}

open Job

/-- File trees as places for commands. -/
def onTree (rejection : String → Option String) (colors : Bool) :
    Environment (StateM FileTree) where
  files := FileTree.files
  rejection
  colors

/-! ## Writing -/

section

variable {rejection : String → Option String} {colors : Bool} {path text : String}
  {before after : Transcript} {t t' : FileTree}

theorem writing_ok {paths : List String} {t₁ : FileTree} (hadds : FileTree.Adds paths t t₁)
    (h : (Job.outcome (do
        let written ← ask ((onTree rejection colors).files.write path text)
        Job.ofExcept (written.mapError fun e => ["failed to write " ++ path, e.message]))
          before).run t₁ = ((.ok (), after), t')) :
    after = before ∧ FileTree.Written paths path text t t' := by
  obtain ⟨written, b₁, t₂, hask, hrest⟩ := bind_ok h
  obtain ⟨hwrite, rfl⟩ := ask_ok hask
  obtain ⟨hresult, rfl, rfl⟩ := ofExcept_ok hrest
  cases written with
  | error e => cases hresult
  | ok u => exact ⟨rfl, hadds.written hwrite⟩

/-- **What is written without a failure is there.** -/
theorem writeOut_ok
    (h : ((writeOut (onTree rejection colors) path text).outcome before).run t =
      ((.ok (), after), t')) :
    after = before ∧ FileTree.Written (Path.above path) path text t t' := by
  rw [writeOut] at h
  rw [Path.above]
  cases hparent : Path.parent? path with
  | none =>
    rw [hparent] at h
    exact writing_ok (.refl [] t) h
  | some parent =>
    rw [hparent] at h
    obtain ⟨made, b₁, t₁, hask, hrest⟩ := bind_ok h
    obtain ⟨hmake, rfl⟩ := ask_ok hask
    obtain ⟨_, b₂, t₂, hmade, hwrite⟩ := bind_ok hrest
    obtain ⟨-, rfl, rfl⟩ := ofExcept_ok hmade
    have hstate : ((FileTree.makeDirectories parent).run t).2 = t₂ := congrArg Prod.snd hmake
    exact writing_ok (hstate ▸ FileTree.keeps_makeDirectories parent t) hwrite

end

/-! ## Requests -/

theorem outcome_print {m : Type → Type} [Monad m] [LawfulMonad m] (line : String) (t : Transcript) :
    (print line : Job m Unit).outcome t =
      pure (.ok (), { t with output := t.output ++ line ++ "\n" }) :=
  outcome_modify t fun t => { t with output := t.output ++ line ++ "\n" }

theorem run_noOp {m : Type → Type} [Monad m] [LawfulMonad m] (env : Environment m)
    {r : SchemaRequest} (h : r.noOp = true) :
    (Command.schema r).run env =
      pure (.ok (), { errors := (Command.schema r).label ++ "\n" }) := by
  change (runSchema env r).outcome {} = _
  rw [runSchema, if_pos h, outcome_printError, Transcript.warned]
  rw [String.empty_append]

/-- **A request draws up its document first, and goes on with it where it should go.** -/
theorem run_schema (env : Environment (StateM σ)) (hfiles : env.files.Quiet) {r : SchemaRequest}
    (h : r.noOp = false) (s : σ) :
    ∃ log : Log, ∀ out, ((Command.schema { r with out }).run env).run s =
      match prepared env r s, out with
      | .error reasons, _ => ((.error reasons, { log }), s)
      | .ok text, none => ((.ok (), { output := text ++ "\n", log }), s)
      | .ok text, some path => ((writeOut env path text).outcome { log }).run s := by
  obtain ⟨records, hdocument⟩ := answers_document hfiles r {} s
  have hlog : ({} : Transcript).noted records = { log := records } := by
    rw [Transcript.noted, List.nil_append]
  -- up to here a run does not know where the document goes, so its log is the same for all
  have hrun : ∀ k : String → Job (StateM σ) Unit, ((document env r >>= k).outcome {}).run s =
      (after k (prepared env r s, { log := records })).run s := by
    intro k
    rw [outcome_bind, StateT.run_bind, hdocument, hlog]
    rfl
  have hop : ¬ r.noOp = true := by simp [h]
  refine ⟨records, fun out => ?_⟩
  cases out with
  | none =>
    have hschema : (Command.schema { r with out := none }).run env =
        (document env r >>= print).outcome {} := congrArg (outcome · {}) (if_neg hop)
    rw [hschema, hrun]
    cases prepared env r s with
    | error reasons => rfl
    | ok text =>
      rw [after_ok, outcome_print, String.empty_append]
      rfl
  | some path =>
    have hschema : (Command.schema { r with out := some path }).run env =
        (document env r >>= writeOut env path).outcome {} := congrArg (outcome · {}) (if_neg hop)
    rw [hschema, hrun]
    cases prepared env r s with
    | error reasons => rfl
    | ok text => rfl

/-- **A request for a schema does all or nothing, and says the same everywhere.**  If it is only
shown, nothing is asked of any place.  Wherever questions change nothing, a request whose document
is not ready fails, leaves everything as it is and prints nothing; a document that is to be printed
is printed.  A request that writes into a tree and succeeds prints nothing; the file has the
document, nothing else has changed but missing directories above it, and the same request without a
file prints the same text. -/
theorem schema_atomic (r : SchemaRequest) :
    (r.noOp = true → ∀ {m : Type → Type} [Monad m] [LawfulMonad m] (env : Environment m),
      (Command.schema r).run env =
        pure (.ok (), { errors := (Command.schema r).label ++ "\n" })) ∧
    (r.noOp = false → ∀ {σ : Type} (env : Environment (StateM σ)), env.files.Quiet → ∀ s : σ,
      (∀ reasons, prepared env r s = .error reasons →
        ∃ log, ((Command.schema r).run env).run s = ((.error reasons, { log }), s)) ∧
      (∀ text, prepared env r s = .ok text → r.out = none →
        ∃ log, ((Command.schema r).run env).run s =
          ((.ok (), { output := text ++ "\n", log }), s))) ∧
    (r.noOp = false → ∀ rejection colors path t t' transcript, r.out = some path →
      ((Command.schema r).run (onTree rejection colors)).run t = ((.ok (), transcript), t') →
        transcript.output = "" ∧ ∃ catalog schema,
          loadedFrom (onTree rejection colors) r.settings t = .ok catalog ∧
          ((r.settings.compiler catalog).compile r.aliasName).1 = .ok schema ∧
          (r.validate = true → Check.document rejection schema.toValue = []) ∧
          FileTree.Written (Path.above path) path schema.toValue.pretty t t' ∧
          ((Command.schema { r with out := none }).run (onTree rejection colors)).run t =
            ((.ok (), { transcript with output := schema.toValue.pretty ++ "\n" }), t)) := by
  refine ⟨fun h _ _ _ env => run_noOp env h, fun h σ env hfiles s => ?_,
    fun h rejection colors path t t' transcript hout hrun => ?_⟩
  · obtain ⟨log, hschema⟩ := run_schema env hfiles h s
    refine ⟨fun reasons hprepared => ⟨log, ?_⟩, fun text hprepared hout => ⟨log, ?_⟩⟩
    · rw [hschema r.out, hprepared]
    · rw [hschema r.out, hprepared, hout]
  · obtain ⟨log, hschema⟩ := run_schema (onTree rejection colors) FileTree.quiet_files h t
    rw [hschema r.out, hout] at hrun
    cases hprepared : prepared (onTree rejection colors) r t with
    | error reasons =>
      rw [hprepared] at hrun
      cases hrun
    | ok text =>
      rw [hprepared] at hrun
      obtain ⟨rfl, hwritten⟩ := writeOut_ok hrun
      obtain ⟨catalog, schema, hload, hcompile, hcheck, rfl⟩ := prepared_eq_ok_iff.mp hprepared
      refine ⟨rfl, catalog, schema, hload, hcompile, hcheck, hwritten, ?_⟩
      rw [hschema none, hprepared]

/-! ## A catalog with one type -/

def shelf : String :=
  "\x7b\"types\":\x7b\"shelf\":\x7b\"fields\":[" ++
    "\x7b\"name\":\"label\",\"type\":\"string\"\x7d]\x7d\x7d\x7d"

def shelfTree : FileTree := FileTree.empty.add "shelf.json" (.file (some shelf))

def shelfEnvironment : Environment (StateM FileTree) := onTree (fun _ => none) false

def shelfRequest : SchemaRequest where
  settings := { catalog := ["shelf.json"] }
  aliasName := "shelf"
  validate := true
  out := some "schemas/shelf.json"

/-- The shelf is written below a directory that has been missing; a type that does not exist leaves
the tree as it is, and a request that only shows itself leaves any place as it is. -/
theorem schema_atomic_shelf :
    (Command.schema { shelfRequest with noOp := true }).run shelfEnvironment = pure (.ok (),
      { errors := (Command.schema { shelfRequest with noOp := true }).label ++ "\n" }) ∧
    (∃ reasons log, ((Command.schema { shelfRequest with aliasName := "rack" }).run
      shelfEnvironment).run shelfTree = ((.error reasons, { log }), shelfTree)) ∧
    (∃ text log, ((Command.schema { shelfRequest with out := none }).run
      shelfEnvironment).run shelfTree = ((.ok (), { output := text ++ "\n", log }), shelfTree)) ∧
    ∃ text t', FileTree.Written ["schemas"] "schemas/shelf.json" text shelfTree t' := by
  refine ⟨(schema_atomic { shelfRequest with noOp := true }).1 rfl shelfEnvironment, ?_, ?_, ?_⟩
  · have hfails : (prepared shelfEnvironment { shelfRequest with aliasName := "rack" }
        shelfTree).isOk = false := by decide +kernel
    cases h : prepared shelfEnvironment { shelfRequest with aliasName := "rack" } shelfTree with
    | ok text =>
      rw [h] at hfails
      cases hfails
    | error reasons =>
      exact ⟨reasons, ((schema_atomic { shelfRequest with aliasName := "rack" }).2.1 rfl
        shelfEnvironment FileTree.quiet_files shelfTree).1 reasons h⟩
  · have hready : (prepared shelfEnvironment shelfRequest shelfTree).isOk = true := by
      decide +kernel
    cases h : prepared shelfEnvironment shelfRequest shelfTree with
    | error reasons =>
      rw [h] at hready
      cases hready
    | ok text =>
      exact ⟨text, ((schema_atomic { shelfRequest with out := none }).2.1 rfl
        shelfEnvironment FileTree.quiet_files shelfTree).2 text h rfl⟩
  · have hends : (((Command.schema shelfRequest).run shelfEnvironment).run shelfTree).1.1.isOk =
        true := by decide +kernel
    cases hrun : ((Command.schema shelfRequest).run shelfEnvironment).run shelfTree with
    | mk r t' =>
      obtain ⟨result, transcript⟩ := r
      cases result with
      | error reasons =>
        rw [hrun] at hends
        cases hends
      | ok u =>
        obtain ⟨-, catalog, schema, -, -, -, hwritten, -⟩ := (schema_atomic shelfRequest).2.2 rfl
          (fun _ => none) false "schemas/shelf.json" shelfTree t' transcript rfl hrun
        exact ⟨schema.toValue.pretty, t', hwritten⟩

end CommandLine

end SchemaTree
