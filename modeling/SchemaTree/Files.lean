/-!
# Access to files

What a program may ask of the place where its files are.  `Files m` gathers the
questions; the answers come from a computation `m`, which may be the real system
or a `FileTree` in memory.
-/

namespace SchemaTree

/-- Why a file cannot be read or written. -/
inductive FileError where
  | notFound
  | notDirectory
  | isDirectory
  | exists
  | nameTooLong
  | badName
  | notText
  | other (text : String)
  deriving DecidableEq, Repr

/-- The wording of a failed access to a file. -/
def FileError.message : FileError → String
  | notFound => "No such file or directory (os error 2)"
  | notDirectory => "Not a directory (os error 20)"
  | isDirectory => "Is a directory (os error 21)"
  | «exists» => "File exists (os error 17)"
  | nameTooLong => "File name too long (os error 36)"
  | badName => "file name contained an unexpected NUL byte"
  | notText => "stream did not contain valid UTF-8"
  | other text => text

/-- What can be asked of files. -/
structure Files (m : Type → Type) where
  /-- The text of a file. -/
  read : String → m (Except FileError String)
  /-- Whether there is anything at a path. -/
  isThere : String → m Bool
  /-- Whether there is a directory at a path. -/
  isDirectory : String → m Bool
  /-- The names in a directory, in any order. -/
  names : String → m (Except FileError (List String))
  /-- Makes a directory and those it stands in, as far as they are missing. -/
  makeDirectories : String → m (Except FileError Unit)
  /-- Makes a text the content of a file. -/
  write : String → String → m (Except FileError Unit)

end SchemaTree
