import SchemaTree.Catalog.Build
import SchemaTree.Log

/-!
# Loading a catalog from files

The definitions of several files make one catalog.  References may go from file
to file; **an alias that was defined in one file must not be defined in another.**
Files are looked at in order, and the first offence counts.

* `Definitions.merge`: the definitions of one file behind those of others.
* `Catalog.ofFiles`: the catalog of files.
-/

namespace SchemaTree

/-- The content of a file under its path, or why it cannot be read. -/
abbrev SourceFile := String × Except FileError String

/-- Adds definitions behind known ones. -/
def Definitions.merge (known : Definitions) : Definitions → Except CatalogError Definitions
  | [] => .ok known
  | (aliasName, d) :: rest =>
    if known.any (·.1 = aliasName) then .error (.duplicateAlias aliasName)
    else Definitions.merge (known ++ [(aliasName, d)]) rest

/-- The definitions in a file. -/
def SourceFile.definitions : SourceFile → Except CatalogError Definitions
  | (path, .error cause) => .error (.unreadable path cause)
  | (_, .ok text) =>
    match Definitions.ofText text with
    | .ok defs => .ok defs
    | .error refusal => .error (.malformed refusal)

/-- The record about a file that was read. -/
def loadRecord (path : String) (defs : Definitions) : Record :=
  ⟨.debug, "loaded " ++ toString defs.length ++ " type(s) from " ++ path⟩

/-- Loading keeps a log, also when it fails. -/
abbrev Loading := ExceptT CatalogError (StateM Log)

/-- The definitions of files behind known ones. -/
def Definitions.load (known : Definitions) : List SourceFile → Loading Definitions
  | [] => return known
  | file :: files => do
    match file.definitions with
    | .error e => throw e
    | .ok defs =>
      modify (· ++ [loadRecord file.1 defs])
      match known.merge defs with
      | .error e => throw e
      | .ok all => Definitions.load all files

/-- The catalog of files, and the log of loading it. -/
def Catalog.ofFiles (files : List SourceFile) : Except CatalogError Catalog × Log :=
  let (result, log) := (Definitions.load [] files).run.run []
  match result with
  | .ok defs => (Catalog.build defs, log)
  | .error e => (.error e, log)

end SchemaTree
