import SchemaTree.CommandLine.Arguments
import SchemaTree.CommandLine.Run
import SchemaTree.Pattern

/-!
# The program

Reads the words of the command line, runs the command on the files of the system,
and prints what it leaves.  Wildcards that the shell has not expanded are refused
here, since no directory is listed.
-/

namespace SchemaTree.Main

/-- Why the system did not do what was asked. -/
def fileError : IO.Error → FileError
  | .noFileOrDirectory .. => .notFound
  | .alreadyExists .. => .exists
  | .inappropriateType _ 20 _ => .notDirectory
  | .inappropriateType _ 21 _ => .isDirectory
  | .permissionDenied _ code _ => .other ("Permission denied (os error " ++ toString code ++ ")")
  | e => .other (toString e)

/-- Runs an action that may fail. -/
def attempt {α : Type} (action : IO α) : IO (Except FileError α) := do
  match ← action.toBaseIO with
  | .ok a => return .ok a
  | .error e => return .error (fileError e)

/-- The text of a file. -/
def read (path : String) : IO (Except FileError String) := do
  match ← attempt (IO.FS.readBinFile path) with
  | .error e => return .error e
  | .ok bytes =>
    match String.fromUTF8? bytes with
    | some text => return .ok text
    | none => return .error .notText

/-- Whether there is a directory at a path: reading it fails for this reason. -/
def isDirectory (path : String) : IO Bool := do
  match ← read path with
  | .error .isDirectory => return true
  | _ => return false

/-- Whether there is anything at a path. -/
def isThere (path : String) : IO Bool := do
  match ← read path with
  | .ok _ => return true
  | .error .notText => return true
  | .error .isDirectory => return true
  | .error _ => return false

/-- The files of the system. -/
def files : Files IO where
  read := read
  isThere := isThere
  isDirectory := isDirectory
  names := fun _ => return .error (.other "directories are not listed")
  makeDirectories := fun path => attempt (if path = "" then pure () else IO.FS.createDirAll path)
  write := fun path text => attempt (IO.FS.writeFile path text)

/-- The reasons of a failure, the outermost first, each of the others on a line of its own. -/
def failureText : CommandLine.Failure → String
  | [] => "Error"
  | [reason] => "Error: " ++ reason
  | [reason, cause] => "Error: " ++ reason ++ "\n\nCaused by:\n    " ++ cause
  | reason :: causes =>
    "Error: " ++ reason ++ "\n\nCaused by:" ++
      String.join (causes.mapIdx fun i c => "\n    " ++ toString i ++ ": " ++ c)

/-- How the program is used. -/
def usage : String :=
  "Compile entity catalogs into JSON schemas, breaking reference cycles.\n\n" ++
    "  schema  --catalog FILE... --alias ALIAS [--validate] [--out FILE] [--no-op]\n" ++
    "  aliases --catalog FILE...\n" ++
    "  check   --catalog FILE...\n\n" ++
    "All take [--base-url URL] [--max-depth N] [--flatten-cycles]."

end SchemaTree.Main

open SchemaTree in
/-- Runs the command that the words ask for. -/
def main (args : List String) : IO UInt32 := do
  match CommandLine.Command.ofArguments args with
  | .error .help =>
    IO.println Main.usage
    return 0
  | .error e =>
    IO.eprintln ("error: " ++ e.message ++ "\n\n" ++ Main.usage)
    return e.exitCode.toUInt32
  | .ok command =>
    let colors := (← (← IO.getStdout).isTty) && (← IO.getEnv "NO_COLOR").isNone
    let (result, transcript) ←
      command.run { files := Main.files, rejection := Pattern.rejection, colors := colors }
    IO.print transcript.output
    IO.eprint transcript.errors
    match result with
    | .ok () => return 0
    | .error reasons =>
      IO.eprintln (Main.failureText reasons)
      return 1
