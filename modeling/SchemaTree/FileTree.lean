import SchemaTree.Files
import SchemaTree.Path

/-!
# File trees

A `FileTree` holds directories and files in memory, under the names that lead to
them from the root, and the directory where one is.  Paths are followed step by
step: `..` leads to the directory above, every step but the last must lead to a
directory, and so must the last if a slash follows it.

* `FileTree.locate`: where a path leads.
* `FileTree.files`: a tree as a place to read from and to write to.

Nothing but `makeDirectory` and `write` changes a tree.  **Putting an entry at a
place changes what stands there, and nothing else** (`at?_put_self`,
`at?_put_of_ne`).
-/

namespace SchemaTree

/-- What stands at a place: a directory, or a file with its text, unless its bytes are no text. -/
inductive Entry where
  | directory
  | file (text : Option String)
  deriving DecidableEq, Repr

/-- The names that lead from the root to a place. -/
abbrev Place := List String

/-- Files and directories, and the directory where one is. -/
structure FileTree where
  working : Place
  entries : List (Place × Entry)
  deriving Repr

namespace FileTree

/-- What stands at a place. -/
def at? (t : FileTree) (p : Place) : Option Entry :=
  if p = [] then some .directory else t.entries.lookup p

/-- Puts an entry at a place. -/
def put (t : FileTree) (p : Place) (e : Entry) : FileTree :=
  { t with entries := (p, e) :: t.entries }

theorem at?_put_self (t : FileTree) {p : Place} (h : p ≠ []) (e : Entry) :
    (t.put p e).at? p = some e := by
  simp [at?, put, h]

theorem at?_put_of_ne (t : FileTree) {p q : Place} (h : q ≠ p) (e : Entry) :
    (t.put p e).at? q = t.at? q := by
  have hne : (q == p) = false := by simp [h]
  simp [at?, put, List.lookup_cons, hne]

@[simp] theorem working_put (t : FileTree) (p : Place) (e : Entry) :
    (t.put p e).working = t.working := rfl

/-! ## Following paths -/

/-- The greatest number of bytes of a name. -/
def maxNameSize : Nat := 255

/-- The number of bytes that a path stays below. -/
def pathSizeLimit : Nat := 4096

/-- Fails for texts that are no path. -/
def checkPath (path : String) : Except FileError Unit :=
  if path.toList.contains '\x00' then .error .badName
  else if path = "" then .error .notFound
  else if pathSizeLimit ≤ path.utf8ByteSize then .error .nameTooLong
  else .ok ()

/-- Fails for places where no directory is. -/
def checkDirectory (t : FileTree) (dir : Place) : Except FileError Unit :=
  match t.at? dir with
  | some .directory => .ok ()
  | some (.file _) => .error .notDirectory
  | none => .error .notFound

/-- A step from a directory. -/
def step (t : FileTree) (dir : Place) (name : String) : Except FileError Place := do
  t.checkDirectory dir
  if name = "." then return dir
  else if name = ".." then return dir.dropLast
  else if maxNameSize < name.utf8ByteSize then throw .nameTooLong
  else if (t.at? (dir ++ [name])).isSome then return dir ++ [name]
  else throw .notFound

/-- Where a path starts. -/
def start (t : FileTree) (path : String) : Place := if Path.isAbsolute path then [] else t.working

/-- Steps from a directory, one after the other. -/
def walk (t : FileTree) (dir : Place) (names : List String) : Except FileError Place :=
  names.foldlM t.step dir

/-- Where a path leads. -/
def locate (t : FileTree) (path : String) : Except FileError Place := do
  checkPath path
  let p ← t.walk (t.start path) (Path.parts path)
  if Path.endsInSlash path then t.checkDirectory p
  return p

/-- The directory in which the last step of a path ends, and the name of that step; `none` if the
path leads to a directory by its form. -/
def target (t : FileTree) (path : String) : Except FileError (Option Place) := do
  checkPath path
  let names := Path.parts path
  match names.getLast? with
  | none => return none
  | some name =>
    let dir ← t.walk (t.start path) names.dropLast
    t.checkDirectory dir
    if name = "." || name = ".." then return none
    else if maxNameSize < name.utf8ByteSize then throw .nameTooLong
    else return some (dir ++ [name])

/-! ## Questions -/

/-- The text of a file. -/
def read (t : FileTree) (path : String) : Except FileError String := do
  match t.at? (← t.locate path) with
  | some (.file (some text)) => return text
  | some (.file none) => throw .notText
  | some .directory => throw .isDirectory
  | none => throw .notFound

/-- Whether there is anything at a path. -/
def isThere (t : FileTree) (path : String) : Bool := (t.locate path).toOption.isSome

/-- Whether there is a directory at a path. -/
def isDirectory (t : FileTree) (path : String) : Bool :=
  match t.locate path with
  | .ok p => t.at? p = some .directory
  | .error _ => false

/-- The names in a directory. -/
def names (t : FileTree) (path : String) : Except FileError (List String) := do
  let dir ← t.locate path
  t.checkDirectory dir
  return (t.entries.filterMap fun (p, _) =>
    if p.dropLast = dir then p.getLast? else none).eraseDups

/-! ## Changes -/

/-- Accesses that may change a tree; what was changed before a failure stays so. -/
abbrev Access := ExceptT FileError (StateM FileTree)

/-- What a tree answers. -/
def ask {α : Type} (question : FileTree → Except FileError α) : Access α := do
  match question (← get) with
  | .ok a => return a
  | .error e => throw e

/-- Makes a directory. -/
def makeDirectory (path : String) : Access Unit := do
  match ← ask (target · path) with
  | none => throw .exists
  | some p =>
    if ((← get).at? p).isSome then throw .exists
    modify (·.put p .directory)

/-- Makes a directory, if there is none. -/
def ensureDirectory (path : String) : Access Unit :=
  tryCatch (makeDirectory path) fun e => do
    if !(← get).isDirectory path then throw e

/-- Makes the first of some directories, each of which stands in the one behind it. -/
def ensureDirectories : List String → Access Unit
  | [] => return ()
  | path :: outer =>
    tryCatch (ensureDirectory path) fun e => do
      if e ≠ .notFound then throw e
      ensureDirectories outer
      ensureDirectory path

/-- Makes a directory and those it stands in, as far as they are missing. -/
def makeDirectories (path : String) : Access Unit := ensureDirectories (Path.lineage path)

/-- Makes a text the content of a file. -/
def write (path text : String) : Access Unit := do
  match ← ask (target · path) with
  | none => throw .isDirectory
  | some p =>
    if Path.endsInSlash path then throw .isDirectory
    if (← get).at? p = some .directory then throw .isDirectory
    modify (·.put p (.file (some text)))

/-! ## Trees as places for files -/

/-- A tree as a place to read from and to write to. -/
def files : Files (StateM FileTree) where
  read := fun path => return (← get).read path
  isThere := fun path => return (← get).isThere path
  isDirectory := fun path => return (← get).isDirectory path
  names := fun path => return (← get).names path
  makeDirectories := fun path => (makeDirectories path).run
  write := fun path text => (write path text).run

/-- The tree with an empty directory where one is. -/
def empty : FileTree where
  working := ["work"]
  entries := [(["work"], .directory)]

/-- Adds an entry at a place within the directory where one is, and the directories it stands
in. -/
def add (t : FileTree) (path : String) (e : Entry) : FileTree :=
  let names := Path.parts path
  let dirs := (List.range names.length).map fun i => t.working ++ names.take i
  let missing := dirs.filter fun p => (t.at? p).isNone
  (missing.foldl (fun t p => t.put p .directory) t).put (t.working ++ names) e

end FileTree

end SchemaTree
