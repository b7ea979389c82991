import SchemaTree.Compiler
import SchemaTree.Text.Quoted

/-!
# Commands

What can be asked for on the command line: the schema of an alias, the aliases of
a catalog, or a check of the whole catalog.  All begin with the settings that say
which catalog is meant and how it is compiled.

* `Command.label`: a command for people who debug, one member a line.
-/

namespace SchemaTree.CommandLine

/-- Which catalog is meant, and how it is compiled. -/
structure Settings where
  /-- Paths or wildcards of the files of the catalog. -/
  catalog : List String
  baseUrl : String := defaultBase
  maxDepth : Nat := 64
  flattenCycles : Bool := false
  deriving DecidableEq, Repr

/-- The schema of an alias is asked for. -/
structure SchemaRequest where
  settings : Settings
  aliasName : String
  /-- Whether the document is checked before it is written. -/
  validate : Bool := false
  /-- The file to write to, if not the output. -/
  out : Option String := none
  /-- Whether only the request itself is shown. -/
  noOp : Bool := false
  deriving DecidableEq, Repr

/-- What is asked for. -/
inductive Command where
  | schema (request : SchemaRequest)
  | aliases (settings : Settings)
  | check (settings : Settings)
  deriving DecidableEq, Repr

/-- The options of the compiler that settings ask for. -/
def Settings.options (s : Settings) : CompilerOptions where
  maxDepth := s.maxDepth
  policy := if s.flattenCycles then .flatten else .reference

/-- The compiler of a catalog that settings ask for. -/
def Settings.compiler (s : Settings) (catalog : Catalog) : Compiler :=
  .ofCatalog catalog s.baseUrl s.options

/-! ## Labels -/

/-- Items within brackets, each indented and followed by a comma. -/
def enclosed (opening closing : String) (items : List (List String)) : List String :=
  let item (lines : List String) : List String :=
    lines.mapIdx fun i l => "    " ++ l ++ (if i + 1 = lines.length then "," else "")
  opening :: items.flatMap item ++ [closing]

/-- The lines of a value behind the name of a member. -/
def member (name : String) : List String → List String
  | [] => []
  | l :: ls => (name ++ ": " ++ l) :: ls

/-- The lines of a record. -/
def recordLines (name : String) (members : List (String × List String)) : List String :=
  enclosed (name ++ " \x7b") "\x7d" (members.map fun (n, ls) => member n ls)

def boolLines (b : Bool) : List String := [if b then "true" else "false"]

/-- A path between quotes; an apostrophe is written as an escape too. -/
def quotedPath (path : String) : String :=
  let character (c : Char) : List Char := if c = '\'' then ['\\', '\''] else Text.quotedChar c
  "\"" ++ String.ofList (path.toList.flatMap character) ++ "\""

def Settings.lines (s : Settings) : List String :=
  recordLines "CatalogSettings" [
    ("catalog", enclosed "[" "]" (s.catalog.map fun c => [Text.quoted c])),
    ("base_url", [Text.quoted s.baseUrl]),
    ("max_depth", [toString s.maxDepth]),
    ("flatten_cycles", boolLines s.flattenCycles)]

def SchemaRequest.lines (r : SchemaRequest) : List String :=
  recordLines "SchemaOut" [
    ("catalog_settings", r.settings.lines),
    ("alias", [Text.quoted r.aliasName]),
    ("validate", boolLines r.validate),
    ("out", match r.out with
      | some path => enclosed "Some(" ")" [[quotedPath path]]
      | none => ["None"]),
    ("no_op", boolLines r.noOp)]

def Command.lines : Command → List String
  | .schema r => enclosed "Schema(" ")" [r.lines]
  | .aliases s =>
    enclosed "Aliases(" ")" [recordLines "AliasesOut" [("catalog_settings", s.lines)]]
  | .check s => enclosed "Check(" ")" [recordLines "CheckOut" [("catalog_settings", s.lines)]]

/-- A command for people who debug. -/
def Command.label (c : Command) : String :=
  "\n".intercalate (recordLines "CommandLineInterface" [("cmd", c.lines)])

end SchemaTree.CommandLine
