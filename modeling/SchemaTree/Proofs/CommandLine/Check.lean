import SchemaTree.FileTree
import SchemaTree.Proofs.CommandLine.Jobs
import SchemaTree.Proofs.Compiler.Patterns

/-!
# Checks of catalogs

A check compiles the types of all aliases of a catalog and checks their documents, each on its own.

* `outcome_runCheck`: what a check finds depends on the contents of its files only.
* `isOk_verdict`: **a verdict speaks of one alias only**, and there are two things that can speak
  against it.
* `check_truthful`: **a check succeeds exactly if the catalog loads, no alias is nested too deeply
  and all patterns are accepted**, and otherwise it counts the aliases that are in trouble.
-/

namespace SchemaTree.CommandLine

open Job

/-! ## The run of a check -/

/-- The end of a check in which some aliases have failed. -/
def conclusion (failed total : Nat) : Except Failure Unit :=
  if 0 < failed then .error [toString failed ++ " of " ++ toString total ++ " alias(es) failed"]
  else .ok ()

theorem conclusion_eq_ok_iff {failed total : Nat} :
    conclusion failed total = .ok () ↔ failed = 0 := by
  rw [conclusion]
  split
  · simp only [reduceCtorEq, false_iff]
    omega
  · simp only [true_iff]
    omega

/-- The verdicts on all aliases, each with its log. -/
def verdicts (rejection : String → Option String) (s : Settings) (catalog : Catalog) :
    List (String × Verdict × Log) :=
  catalog.aliases.map fun a => (a, verdict rejection (s.compiler catalog) a)

/-- A transcript to which a verdict has been added. -/
def Transcript.told (colors : Bool) (t : Transcript) (v : String × Verdict × Log) : Transcript :=
  (t.noted v.2.2).warned (verdictLine colors v.1 v.2.1)

/-- **What a check makes of the files of a catalog**, from a transcript. -/
def checked (rejection : String → Option String) (colors : Bool) (s : Settings)
    (files : List SourceFile) (t : Transcript) : Except Failure Unit × Transcript :=
  match loaded files t with
  | (.error reasons, t) => (.error reasons, t)
  | (.ok catalog, t) =>
    (conclusion ((verdicts rejection s catalog).countP fun v => !v.2.1.isOk)
        (verdicts rejection s catalog).length,
      (verdicts rejection s catalog).foldl (Transcript.told colors) (t.noted compilerRecords))

section

variable {m : Type → Type} [Monad m]

theorem outcome_conclusion (failed total : Nat) (t : Transcript) :
    (if 0 < failed then
      throw [toString failed ++ " of " ++ toString total ++ " alias(es) failed"]
    else pure () : Job m Unit).outcome t = pure (conclusion failed total, t) := by
  rw [conclusion]
  split
  · exact outcome_throw t _
  · exact outcome_pure t _

variable [LawfulMonad m]

/-- **A check reads its files and does the rest on its own.** -/
theorem outcome_runCheck (env : Environment m) {s : Settings}
    (h : ∀ p ∈ s.catalog, isWildcard p = false) (t : Transcript) :
    (runCheck env s).outcome t =
      (fun files => checked env.rejection env.colors s files t) <$>
        s.catalog.mapM (readFile env) := by
  rw [runCheck, outcome_bind, outcome_loadCatalog env h, bind_map_left, map_eq_pure_bind]
  refine bind_congr fun files => ?_
  rw [checked]
  cases loaded files t with
  | mk result t =>
    cases result with
    | error reasons => exact after_error t _ reasons
    | ok catalog =>
      have htell : ∀ v t, (do
          Job.note v.2.2
          Job.printError (verdictLine env.colors v.1 v.2.1) : Job m PUnit).outcome t =
            pure (.ok ⟨⟩, Transcript.told env.colors t v) := by
        intro v t
        rw [outcome_bind, outcome_note, pure_bind, after_ok, outcome_printError]
        rfl
      rw [after_ok, outcome_bind, outcome_note, pure_bind, after_ok]
      dsimp only
      rw [outcome_bind, outcome_forM _ htell, pure_bind, after_ok]
      exact outcome_conclusion _ _ _

end

/-! ## Verdicts -/

variable {rejection : String → Option String} {colors : Bool} {s : Settings} {catalog : Catalog}

theorem isOk_verdict_of_compile {c : Compiler} {aliasName : String} {schema : Schema}
    (h : (c.compile aliasName).1 = .ok schema) :
    (verdict rejection c aliasName).1.isOk =
      (Check.document rejection schema.toValue).isEmpty := by
  rw [verdict]
  cases hcompile : c.compile aliasName with
  | mk result trace =>
    rw [hcompile] at h
    subst h
    cases hdocument : Check.document rejection schema.toValue with
    | nil =>
      dsimp only
      rw [hdocument]
      rfl
    | cons v vs =>
      dsimp only
      rw [hdocument]
      rfl

theorem isOk_verdict_of_compile_error {c : Compiler} {aliasName : String} {e : CompileError}
    (h : (c.compile aliasName).1 = .error e) : (verdict rejection c aliasName).1.isOk = false := by
  rw [verdict]
  cases hcompile : c.compile aliasName with
  | mk result trace =>
    rw [hcompile] at h
    subst h
    rfl

/-- **The verdict on an alias is good exactly if the alias is not in trouble.** -/
theorem isOk_verdict {aliasName : String} (hcat : catalog.FromJson)
    (ha : aliasName ∈ catalog.aliases) :
    (verdict rejection (s.compiler catalog) aliasName).1.isOk =
      !(s.compiler catalog).isTroubled rejection aliasName := by
  rw [Compiler.isTroubled]
  cases hcompile : ((s.compiler catalog).compile aliasName).1 with
  | error e =>
    obtain ⟨u, depth, rfl⟩ := Compiler.depthExceeded_of_compile hcat.accepted ha hcompile
    exact isOk_verdict_of_compile_error hcompile
  | ok schema =>
    have hemits : (s.compiler catalog).Emits aliasName schema := .compiled hcompile
    have hproper := hemits.proper_withHandlers hcat fun e he => List.mem_map_of_mem he
    rw [isOk_verdict_of_compile hcompile, hemits.document_toValue hproper rejection]
    exact schema.isEmpty_violations

/-! ## What a check finds -/

variable {files : List SourceFile} (t : Transcript)

theorem checked_of_ofFiles_error {e : CatalogError} (h : (Catalog.ofFiles files).1 = .error e) :
    (checked rejection colors s files t).1 = .error (loadFailure e) := by
  rw [checked, loaded]
  cases hload : Catalog.ofFiles files with
  | mk result log =>
    rw [hload] at h
    subst h
    rfl

/-- **A check of a catalog that loads counts the aliases that are in trouble.** -/
theorem checked_of_ofFiles (h : (Catalog.ofFiles files).1 = .ok catalog) :
    (checked rejection colors s files t).1 =
      conclusion (catalog.aliases.countP ((s.compiler catalog).isTroubled rejection))
        catalog.aliases.length := by
  have hcount : (verdicts rejection s catalog).countP (fun v => !v.2.1.isOk) =
      catalog.aliases.countP ((s.compiler catalog).isTroubled rejection) := by
    rw [verdicts, List.countP_map]
    refine List.countP_congr fun a ha => ?_
    rw [Function.comp_apply, isOk_verdict (.ofFiles h) ha, Bool.not_not]
  rw [checked, loaded]
  cases hload : Catalog.ofFiles files with
  | mk result log =>
    rw [hload] at h
    subst h
    dsimp only
    rw [hcount, verdicts, List.length_map]

/-- **A check succeeds exactly if the catalog loads, no alias is nested too deeply and the patterns
are accepted.** -/
theorem checked_eq_ok_iff :
    (checked rejection colors s files t).1 = .ok () ↔
      ∃ catalog, (Catalog.ofFiles files).1 = .ok catalog ∧
        (∀ a ∈ catalog.aliases, ∀ u depth limit,
          ((s.compiler catalog).compile a).1 ≠ .error (.depthExceeded u depth limit)) ∧
        catalog.AcceptedPatterns rejection := by
  cases hload : (Catalog.ofFiles files).1 with
  | error e =>
    rw [checked_of_ofFiles_error t hload]
    exact ⟨fun h => (nomatch h), fun ⟨_, h, _⟩ => (nomatch h)⟩
  | ok catalog =>
    rw [checked_of_ofFiles t hload, conclusion_eq_ok_iff, List.countP_eq_zero]
    simp only [Bool.not_eq_true]
    refine (Compiler.isTroubled_eq_false_iff (.ofFiles hload)).trans ⟨?_, ?_⟩
    · exact fun hfine => ⟨catalog, rfl, hfine⟩
    · rintro ⟨_, h, hfine⟩
      cases h
      exact hfine

/-- **A check tells the truth about a whole catalog.**  It reads its files and judges by their
contents only.  It succeeds exactly if the catalog loads, no alias is nested too deeply, and the
patterns of all fields that are not ignored are accepted.  If the catalog loads and the check fails,
it counts the aliases that are in trouble: those that are nested too deeply, and those whose trees
have a rejected pattern. -/
theorem check_truthful {m : Type → Type} [Monad m] [LawfulMonad m] (env : Environment m)
    (s : Settings) (h : ∀ p ∈ s.catalog, isWildcard p = false) :
    (Command.check s).run env =
      (fun files => checked env.rejection env.colors s files {}) <$>
        s.catalog.mapM (readFile env) ∧
    ∀ files,
      ((checked env.rejection env.colors s files {}).1 = .ok () ↔
        ∃ catalog, (Catalog.ofFiles files).1 = .ok catalog ∧
          (∀ a ∈ catalog.aliases, ∀ u depth limit,
            ((s.compiler catalog).compile a).1 ≠ .error (.depthExceeded u depth limit)) ∧
          catalog.AcceptedPatterns env.rejection) ∧
      ∀ catalog, (Catalog.ofFiles files).1 = .ok catalog →
        (checked env.rejection env.colors s files {}).1 ≠ .ok () →
          catalog.aliases.Nodup ∧
          (checked env.rejection env.colors s files {}).1 =
            .error [toString (catalog.aliases.countP
                ((s.compiler catalog).isTroubled env.rejection)) ++
              " of " ++ toString catalog.aliases.length ++ " alias(es) failed"] := by
  refine ⟨outcome_runCheck env h {}, fun files => ⟨checked_eq_ok_iff {}, ?_⟩⟩
  intro catalog hload hfailed
  refine ⟨(Catalog.Loaded.ofFiles hload).nodup_aliases, ?_⟩
  rw [checked_of_ofFiles {} hload] at hfailed ⊢
  rw [Ne, conclusion_eq_ok_iff] at hfailed
  rw [conclusion, if_pos (Nat.pos_of_ne_zero hfailed)]

/-! ## A catalog with a rejected pattern -/

/-- A type with a pattern, one that does not refer to it and one that does. -/
def stock : String :=
  "\x7b\"types\":\x7b\"tag\":\x7b\"fields\":[\x7b\"name\":\"label\",\"type\":\"string\"," ++
    "\"pattern\":\"(\"\x7d]\x7d,\"shelf\":\x7b\x7d," ++
    "\"item\":\x7b\"fields\":[\x7b\"name\":\"tag\",\"type\":\"tag\"\x7d]\x7d\x7d\x7d"

def stockSettings : Settings := { catalog := ["stock.json"] }

/-- File trees, with a single text that is no pattern. -/
def stockEnvironment : Environment (StateM FileTree) where
  files := FileTree.files
  rejection := fun p => if p = "(" then some "unclosed group" else none

/-- Two of three aliases are in trouble, and the check says so. -/
theorem check_truthful_stock :
    (∀ p ∈ stockSettings.catalog, isWildcard p = false) ∧
    (((Command.check stockSettings).run stockEnvironment).run
        (FileTree.empty.add "stock.json" (.file (some stock)))).1.1 =
      .error ["2 of 3 alias(es) failed"] := by
  have hliteral : ∀ p ∈ stockSettings.catalog, isWildcard p = false := by decide
  refine ⟨hliteral, ?_⟩
  obtain ⟨hrun, hfiles⟩ := check_truthful stockEnvironment stockSettings hliteral
  have hread : (stockSettings.catalog.mapM (readFile stockEnvironment)).run
      (FileTree.empty.add "stock.json" (.file (some stock))) =
        ([("stock.json", .ok stock)], FileTree.empty.add "stock.json" (.file (some stock))) := by
    rfl
  have hcounts : (Catalog.ofFiles [("stock.json", .ok stock)]).1.toOption.map (fun catalog =>
      (catalog.aliases.countP
        ((stockSettings.compiler catalog).isTroubled stockEnvironment.rejection),
        catalog.aliases.length)) = some (2, 3) := by
    decide +kernel
  cases hload : (Catalog.ofFiles [("stock.json", .ok stock)]).1 with
  | error e =>
    rw [hload] at hcounts
    cases hcounts
  | ok catalog =>
    rw [hload] at hcounts
    obtain ⟨hcount, hlength⟩ := Prod.mk.inj (Option.some.inj hcounts)
    have hfailed : (checked stockEnvironment.rejection stockEnvironment.colors stockSettings
        [("stock.json", .ok stock)] {}).1 ≠ .ok () := by
      rw [checked_of_ofFiles {} hload, Ne, conclusion_eq_ok_iff, hcount]
      decide
    obtain ⟨-, herror⟩ := (hfiles [("stock.json", .ok stock)]).2 catalog hload hfailed
    rw [hcount, hlength] at herror
    rw [hrun, StateT.run_map, hread]
    exact herror

/-- An item lies deeper than a limit of zero allows, and the other two do not. -/
example : (checked (fun _ => none) false { stockSettings with maxDepth := 0 }
    [("stock.json", .ok stock)] {}).1 = .error ["1 of 3 alias(es) failed"] := by
  decide +kernel

end SchemaTree.CommandLine
