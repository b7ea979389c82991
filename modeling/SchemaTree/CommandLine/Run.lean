import SchemaTree.Catalog.Load
import SchemaTree.Check
import SchemaTree.CommandLine.Command
import SchemaTree.Compiler.Deferred
import SchemaTree.Glob.Search

/-!
# Running commands

A command reads the files of a catalog, prints, and may write one file.  It is
run in an `Environment`, which says where the files are, which patterns documents
must not hold, and whether texts may be coloured.

What a run prints and logs is a `Transcript`; a run that fails leaves it too, with
the reasons, the outermost first.  **A request for a schema prints or writes
nothing unless the document is ready.**
-/

namespace SchemaTree.CommandLine

/-- Where a command is run. -/
structure Environment (m : Type → Type) where
  files : Files m
  /-- Why a text is no pattern. -/
  rejection : String → Option String
  colors : Bool := false

/-- What a run prints and logs. -/
structure Transcript where
  output : String := ""
  errors : String := ""
  log : Log := []

/-- The reasons of a failure, the outermost first. -/
abbrev Failure := List String

/-- Runs of commands. -/
abbrev Job (m : Type → Type) := ExceptT Failure (StateT Transcript m)

variable {m : Type → Type} [Monad m]

namespace Job

/-- Asks for something outside. -/
def ask {α : Type} (a : m α) : Job m α := ExceptT.lift (StateT.lift a)

/-- Prints a line. -/
def print (line : String) : Job m Unit :=
  modify fun t => { t with output := t.output ++ line ++ "\n" }

/-- Prints a line on the side. -/
def printError (line : String) : Job m Unit :=
  modify fun t => { t with errors := t.errors ++ line ++ "\n" }

/-- Adds records to the log. -/
def note (records : Log) : Job m Unit := modify fun t => { t with log := t.log ++ records }

/-- A result, or its reasons. -/
def ofExcept {α : Type} : Except Failure α → Job m α
  | .ok a => return a
  | .error reasons => throw reasons

end Job

/-! ## Loading the catalog -/

/-- Whether a path is meant as a wildcard. -/
def isWildcard (path : String) : Bool := path.toList.any fun c => "*?[\x7b".toList.contains c

/-- The context of a failure before anything is read. -/
def resolveContext : String := "failed to resolve catalog file paths"

/-- The paths that a path or wildcard stands for. -/
def resolvePath (env : Environment m) (path : String) : Job m (List String) := do
  if isWildcard path then
    let quest ← Job.ofExcept ((Glob.Quest.ofText path).mapError fun f =>
      [resolveContext, f.message])
    let found ← Job.ask (quest.run env.files).run
    match found with
    | .error unlisted => throw [resolveContext, unlisted.message]
    | .ok [] => throw [resolveContext, "glob pattern matched no files: " ++ path]
    | .ok paths => return paths
  else return [path]

/-- The content of a file. -/
def readSource (env : Environment m) (path : String) : Job m SourceFile := do
  return (path, ← Job.ask (env.files.read path))

/-- The reasons for which a catalog is refused. -/
def loadFailure (e : CatalogError) : Failure :=
  "failed to load catalog" :: e.message ::
    match e with
    | .unreadable _ cause => [cause.message]
    | _ => []

/-- The record about a loaded catalog. -/
def catalogRecord (c : Catalog) : Record :=
  ⟨.info, "catalog has " ++ toString c.types.length ++ " type(s)"⟩

/-- The catalog that settings mean. -/
def loadCatalog (env : Environment m) (s : Settings) : Job m Catalog := do
  let paths ← s.catalog.flatMapM (resolvePath env)
  let sources ← paths.mapM (readSource env)
  let (result, log) := Catalog.ofFiles sources
  Job.note log
  let catalog ← Job.ofExcept (result.mapError loadFailure)
  Job.note [catalogRecord catalog]
  return catalog

/-- The records about the handlers of a new compiler. -/
def compilerRecords : Log :=
  Handlers.standard.map fun (h, priority) => Pipeline.registrationRecord h priority

/-! ## Schemas -/

/-- The text of the document that is asked for. -/
def document (env : Environment m) (r : SchemaRequest) : Job m String := do
  let catalog ← loadCatalog env r.settings
  Job.note compilerRecords
  let (result, trace) := (r.settings.compiler catalog).compile r.aliasName
  Job.note trace.log
  let schema ← Job.ofExcept (result.mapError fun e =>
    ["failed to compile `" ++ r.aliasName ++ "`", e.message])
  if r.validate then
    let violations := Check.document env.rejection schema.toValue
    if !violations.isEmpty then
      throw ["schema for `" ++ r.aliasName ++ "` is malformed", Violation.summary violations]
  return schema.toValue.pretty

/-- Writes a text to a file, and makes the directories it stands in. -/
def writeOut (env : Environment m) (path text : String) : Job m Unit := do
  match Path.parent? path with
  | none => pure ()
  | some parent =>
    let made ← Job.ask (env.files.makeDirectories parent)
    Job.ofExcept (made.mapError fun e => [e.message])
  let written ← Job.ask (env.files.write path text)
  Job.ofExcept (written.mapError fun e => ["failed to write " ++ path, e.message])

/-- Writes the schema that is asked for. -/
def runSchema (env : Environment m) (r : SchemaRequest) : Job m Unit := do
  if r.noOp then Job.printError (Command.schema r).label
  else
    let text ← document env r
    match r.out with
    | some path => writeOut env path text
    | none => Job.print text

/-! ## Aliases -/

/-- Lists the aliases of a catalog. -/
def runAliases (env : Environment m) (s : Settings) : Job m Unit := do
  let catalog ← loadCatalog env s
  catalog.aliases.forM Job.print

/-! ## Checking a catalog -/

/-- How texts can look. -/
inductive Style where
  | green
  | red
  | dimmed
  deriving DecidableEq, Repr

/-- What sets a style. -/
def Style.code : Style → String
  | green => "\x1b[32m"
  | red => "\x1b[31m"
  | dimmed => "\x1b[2m"

/-- What ends a style. -/
def styleEnd : String := "\x1b[0m"

/-- A text in a style, which goes on behind styles that end within it. -/
def Style.paint (style : Style) (colors : Bool) (text : String) : String :=
  if colors then style.code ++ text.replace styleEnd (styleEnd ++ style.code) ++ styleEnd
  else text

/-- What a check of an alias finds: whether the schema has deferred links, or what is wrong. -/
abbrev Verdict := Except String Bool

/-- Checks the schema of an alias. -/
def verdict (rejection : String → Option String) (c : Compiler) (aliasName : String) :
    Verdict × Log :=
  match c.compile aliasName with
  | (.error e, trace) => (.error e.message, trace.log)
  | (.ok schema, trace) =>
    match Check.document rejection schema.toValue with
    | [] => (.ok schema.hasDeferred, trace.log)
    | violations => (.error (Violation.summary violations), trace.log)

/-- A verdict on one line. -/
def verdictLine (colors : Bool) (aliasName : String) : Verdict → String
  | .ok false => Style.green.paint colors "✅" ++ " " ++ aliasName
  | .ok true =>
    Style.green.paint colors "✅" ++ " " ++ aliasName ++ " " ++
      Style.dimmed.paint colors "(cyclic $ref)"
  | .error reason =>
    Style.red.paint colors "❌" ++ " " ++ aliasName ++ ": " ++ Style.red.paint colors reason

/-- Checks the schemas of all aliases of a catalog. -/
def runCheck (env : Environment m) (s : Settings) : Job m Unit := do
  let catalog ← loadCatalog env s
  Job.note compilerRecords
  let verdicts := catalog.aliases.map fun aliasName =>
    (aliasName, verdict env.rejection (s.compiler catalog) aliasName)
  verdicts.forM fun (aliasName, v, log) => do
    Job.note log
    Job.printError (verdictLine env.colors aliasName v)
  let failed := verdicts.countP fun (_, v, _) => !v.isOk
  if 0 < failed then
    throw [toString failed ++ " of " ++ toString verdicts.length ++ " alias(es) failed"]

/-! ## Commands -/

/-- Runs a command. -/
def Command.job (env : Environment m) : Command → Job m Unit
  | .schema r => runSchema env r
  | .aliases s => runAliases env s
  | .check s => runCheck env s

/-- Runs a command from an empty transcript. -/
def Command.run (env : Environment m) (c : Command) : m (Except Failure Unit × Transcript) :=
  ((c.job env).run).run {}

end SchemaTree.CommandLine
