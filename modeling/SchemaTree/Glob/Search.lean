import SchemaTree.Files
import SchemaTree.Glob.Wildcard
import SchemaTree.Path

/-!
# Searching files by wildcards

A wildcard of several parts is searched part by part.  A part without holes is
looked up; for others the directory is listed, and the names that are meant are
gone through in order.  A part `**` goes through all directories below, each
before what is in it.  A slash at the end asks for directories only.

The directory where one is does not show in the paths that are found.
-/

namespace SchemaTree.Glob

/-- What is searched for: where the search starts, the parts, and whether only directories are
meant. -/
structure Quest where
  origin : String
  parts : List Wildcard
  onlyDirectories : Bool
  deriving Repr

/-- The texts of the parts behind the root, if a path starts there; a slash at the end begins no
part. -/
def partTexts (text : String) : List (List Char) :=
  let cs := if Path.isAbsolute text then text.toList.drop 1 else text.toList
  let pieces := Path.cut cs
  if pieces.getLast? = some [] then pieces.dropLast else pieces

/-- The search that a text asks for. The text must be a wildcard as a whole and in its parts. -/
def Quest.ofText (text : String) : Except Fault Quest := do
  let _ ← Wildcard.ofText text.toList
  let parts ← (partTexts text).mapM Wildcard.ofText
  return {
    origin := if Path.isAbsolute text then "/" else "."
    parts
    onlyDirectories := Path.endsInSlash text }

/-- A directory that cannot be listed. -/
structure Unlisted where
  path : String
  cause : FileError

/-- The wording of a directory that cannot be listed. -/
def Unlisted.message (u : Unlisted) : String :=
  "attempting to read `" ++ u.path ++ "` resulted in an error: " ++ u.cause.message

variable {m : Type → Type} [Monad m]

/-- Searches ask about files and may fail. -/
abbrev Search (m : Type → Type) := ExceptT Unlisted m

/-- The names in a directory, in order. -/
def listing (files : Files m) (dir : String) : Search m (List String) := do
  match ← files.names dir with
  | .ok names => return names.mergeSort (fun a b => decide (a ≤ b))
  | .error cause => throw ⟨dir, cause⟩

/-- A name in a directory as a path. -/
def pathOf (dir name : String) : String := if Path.isHere dir then name else Path.join dir name

/-- Searches a directory for some parts. -/
abbrev Descent (m : Type → Type) := List Wildcard → String → Search m (List String)

/-- What is found at a path where one part is met: the path itself if no part is left. -/
def arrive (files : Files m) (onlyDirectories : Bool) (descend : Descent m)
    (rest : List Wildcard) (path : String) : Search m (List String) := do
  if rest.isEmpty then
    if onlyDirectories then
      return if ← files.isDirectory path then [path] else []
    else return [path]
  else descend rest path

/-- What is found at a name of a listed directory. -/
def visitName (files : Files m) (onlyDirectories : Bool) (descend : Descent m)
    (parts : List Wildcard) (dir name : String) : Search m (List String) :=
  match parts with
  | [] => return []
  | w :: rest =>
    if w.accepts name.toList then arrive files onlyDirectories descend rest (pathOf dir name)
    else return []

/-- What is found at a name of a listed directory behind a part `**`: what the parts behind it find
there, then what is in it. -/
def visitBelow (files : Files m) (onlyDirectories : Bool) (descend : Descent m)
    (w : Wildcard) (rest : List Wildcard) (dir name : String) : Search m (List String) := do
  let path := pathOf dir name
  let isDirectory ← files.isDirectory path
  let found ←
    if rest.isEmpty then pure (if isDirectory then [path] else [])
    else visitName files onlyDirectories descend rest dir name
  let below ← if isDirectory then descend (w :: rest) path else pure []
  return found ++ below

/-- What parts find in a directory. The steps of paths are bounded; `fuel` bounds them. -/
def searchFrom (files : Files m) (onlyDirectories : Bool) : (fuel : Nat) → Descent m
  | 0, _, _ => return []
  | _ + 1, [], _ => return []
  | fuel + 1, w :: rest, dir => do
    let descend := searchFrom files onlyDirectories fuel
    let isDirectory ← files.isDirectory dir
    match w.name? with
    | some cs =>
      let name := String.ofList cs
      let path := pathOf dir name
      let there ← if name = "." || name = ".." then pure isDirectory else files.isThere path
      if there then arrive files onlyDirectories descend rest path else return []
    | none =>
      if !isDirectory then return []
      let dots := if w.beginsWithPoint then ["..", "."].filter (w.accepts ·.toList) else []
      let above ← dots.flatMapM fun name =>
        arrive files onlyDirectories descend rest (Path.join dir name)
      let found ← (← listing files dir).flatMapM fun name =>
        if w.isDirectories then
          visitBelow files onlyDirectories descend w (rest.dropWhile (·.isDirectories)) dir name
        else visitName files onlyDirectories descend (w :: rest) dir name
      return above ++ found

/-- A bound for the number of steps of a path. -/
def maxSteps : Nat := 4096

/-- The paths that a search finds, in order. -/
def Quest.run (q : Quest) (files : Files m) : Search m (List String) :=
  searchFrom files q.onlyDirectories (maxSteps + q.parts.length) q.parts q.origin

end SchemaTree.Glob
