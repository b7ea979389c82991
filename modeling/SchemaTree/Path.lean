/-!
# Paths

A path is a text whose parts are set apart by slashes.  Empty parts mean nothing,
and neither does a part `.` unless the path begins with it.

* `Path.parent?`: a path without its last part.
* `Path.join`: a name within a directory.
-/

namespace SchemaTree.Path

/-- A text cut at its slashes. -/
def cut : List Char → List (List Char)
  | [] => [[]]
  | c :: cs =>
    if c = '/' then [] :: cut cs
    else
      match cut cs with
      | [] => [[c]]
      | p :: ps => (c :: p) :: ps

/-- The parts of a path that are not empty. -/
def parts (path : String) : List String :=
  ((cut path.toList).filter (· ≠ [])).map String.ofList

/-- Whether a path starts from the root. -/
def isAbsolute (path : String) : Bool := path.toList.head? = some '/'

/-- Whether a path ends in a slash. -/
def endsInSlash (path : String) : Bool := path.toList.getLast? = some '/'

/-- The parts of a path that mean something. -/
def steps (path : String) : List String :=
  match parts path with
  | [] => []
  | p :: ps =>
    let kept := ps.filter (· ≠ ".")
    if p = "." && isAbsolute path then kept else p :: kept

/-- The path that takes some steps. -/
def ofSteps (absolute : Bool) (steps : List String) : String :=
  (if absolute then "/" else "") ++ "/".intercalate steps

/-- A path without its last step, which the root and the empty path do not have. -/
def parent? (path : String) : Option String :=
  match steps path with
  | [] => none
  | ps => some (ofSteps (isAbsolute path) ps.dropLast)

/-- Whether a path means the directory where one is. -/
def isHere (path : String) : Bool := !isAbsolute path && steps path = ["."]

/-- A name within a directory. -/
def join (dir name : String) : String :=
  if dir = "" || endsInSlash dir then dir ++ name else dir ++ "/" ++ name

/-- A path and the directories it stands in, the innermost first, as far as they have names. -/
def lineage (path : String) : List String :=
  let absolute := isAbsolute path
  let ps := steps path
  (List.range ps.length).map fun i => ofSteps absolute (ps.take (ps.length - i))

end SchemaTree.Path
