import SchemaTree.CommandLine.Command

/-!
# Arguments

The words of a command line are read from left to right.  The first names the
command, and options follow: `--name value` and `--name=value`, or with one letter
`-n value`, `-nvalue` and `-n=value`.  An option takes no value, one, or all
words up to the next option; the value behind an equals sign is the only one.
No word that begins with a minus is a value, unless it is the minus alone.

An offence counts where it is met, and so does the wish for help; what is missing
is found at the end.  An option with one value or none must not be repeated.

* `Command.ofArguments`: the command that words ask for.
-/

namespace SchemaTree.CommandLine

/-- Why words are no command; the wish for help is one of the reasons. -/
inductive ArgumentError where
  | help
  | missingCommand
  | unknownCommand (word : String)
  | unexpected (word : String)
  | missingValue (option : String)
  | unneededValue (option value : String)
  | invalidValue (option value : String)
  | repeated (option : String)
  | missingOption (option : String)
  deriving DecidableEq, Repr

/-- The wording of an offence. -/
def ArgumentError.message : ArgumentError → String
  | help => "help is asked for"
  | missingCommand => "a command is required: schema, aliases, check or help"
  | unknownCommand word => "unrecognized command '" ++ word ++ "'"
  | unexpected word => "unexpected argument '" ++ word ++ "'"
  | missingValue option => "a value is required for '--" ++ option ++ "'"
  | unneededValue option value => "unexpected value '" ++ value ++ "' for '--" ++ option ++ "'"
  | invalidValue option value => "invalid value '" ++ value ++ "' for '--" ++ option ++ "'"
  | repeated option => "the option '--" ++ option ++ "' cannot be used multiple times"
  | missingOption option => "the option '--" ++ option ++ "' is required"

/-- The exit code of a run whose words are no command. -/
def ArgumentError.exitCode : ArgumentError → Nat
  | help => 0
  | _ => 2

/-! ## Options -/

/-- How many values an option takes. -/
inductive Arity where
  | none
  | one
  | many
  deriving DecidableEq, Repr

/-- The form of an option. -/
structure OptionForm where
  name : String
  letter : Option Char := none
  arity : Arity := .one
  /-- Which texts can be values. -/
  accepts : String → Bool := fun _ => true

/-- Options that were given, each with its values, in order. -/
abbrev Given := List (String × List String)

namespace Given

/-- The values of an option, of all its occurrences. -/
def values (g : Given) (name : String) : List String :=
  (g.filter (·.1 = name)).flatMap (·.2)

/-- Whether an option was given. -/
def has (g : Given) (name : String) : Bool := g.any (·.1 = name)

/-- The value of an option. -/
def value? (g : Given) (name : String) : Option String := (g.values name).head?

end Given

/-- Adds an occurrence of an option. -/
def OptionForm.give (o : OptionForm) (values : List String) (g : Given) :
    Except ArgumentError Given :=
  if o.arity ≠ .none && values.isEmpty then .error (.missingValue o.name)
  else if o.arity ≠ .many && g.has o.name then .error (.repeated o.name)
  else
    match values.find? (!o.accepts ·) with
    | some v => .error (.invalidValue o.name v)
    | none => .ok (g ++ [(o.name, values)])

/-- What a word is by its form. -/
inductive Word where
  | value
  | endOfOptions
  | long (name : String) (value : Option String)
  | short (first : Char) (rest : List Char)
  deriving DecidableEq, Repr

/-- The form of a word. -/
def Word.ofText (text : String) : Word :=
  match text.toList with
  | ['-', '-'] => .endOfOptions
  | '-' :: '-' :: cs =>
    let name := String.ofList (cs.takeWhile (· ≠ '='))
    match cs.dropWhile (· ≠ '=') with
    | [] => .long name none
    | _ :: behind => .long name (some (String.ofList behind))
  | '-' :: c :: cs => .short c cs
  | _ => .value

/-- The option whose values are being read, if there is one, and the values so far. -/
abbrev Open := Option (OptionForm × List String)

/-- Ends reading the values of an option. -/
def Open.close (o : Open) (g : Given) : Except ArgumentError Given :=
  match o with
  | none => .ok g
  | some (form, values) => form.give values g

/-- The letters of a word behind a minus. -/
def readLetters (forms : List OptionForm) (g : Given) (c : Char) (cs : List Char) :
    Except ArgumentError (Given × Open) :=
  match forms.find? (·.letter = some c), cs with
  | none, _ => .error (if c = 'h' then .help else .unexpected (String.ofList ['-', c]))
  | some o, cs =>
    if o.arity = .none then do
      let g ← o.give [] g
      match cs with
      | [] => return (g, none)
      | d :: ds => readLetters forms g d ds
    else
      match cs with
      | [] => .ok (g, some (o, []))
      | '=' :: value => do return (← o.give [String.ofList value] g, none)
      | value => do return (← o.give [String.ofList value] g, none)
termination_by cs.length

/-- A long option. -/
def readLong (forms : List OptionForm) (g : Given) (name : String) (value : Option String) :
    Except ArgumentError (Given × Open) :=
  match forms.find? (·.name = name) with
  | none =>
    .error (if name = "help" && value.isNone then .help else .unexpected ("--" ++ name))
  | some o =>
    match value, o.arity with
    | some v, .none => .error (.unneededValue name v)
    | none, .none => do return (← o.give [] g, none)
    | some v, _ => do return (← o.give [v] g, none)
    | none, _ => .ok (g, some (o, []))

/-- Reads the words behind a command. -/
def readWords (forms : List OptionForm) (g : Given) (opened : Open) :
    List String → Except ArgumentError Given
  | [] => opened.close g
  | word :: words =>
    match Word.ofText word with
    | .endOfOptions =>
      match words with
      | [] => opened.close g
      | w :: _ => .error (.unexpected w)
    | .value =>
      match opened with
      | some (o, values) =>
        if o.arity = .one && !values.isEmpty then .error (.unexpected word)
        else readWords forms g (some (o, values ++ [word])) words
      | none => .error (.unexpected word)
    | .long name value => do
      let (g, opened) ← readLong forms (← opened.close g) name value
      readWords forms g opened words
    | .short c cs => do
      let (g, opened) ← readLetters forms (← opened.close g) c cs
      readWords forms g opened words

/-! ## Commands -/

/-- The numbers that can be given as depth stay below this. -/
def depthLimit : Nat := 18446744073709551616

/-- The number that a text of digits denotes; a plus may stand before it. -/
def depth? (text : String) : Option Nat :=
  let digits := match text.toList with
    | '+' :: ds => ds
    | ds => ds
  if digits.isEmpty || !digits.all Char.isDigit then none
  else
    let n := digits.foldl (fun n d => n * 10 + (d.toNat - 48)) 0
    if n < depthLimit then some n else none

/-- The options of settings. -/
def settingsForms : List OptionForm := [
  { name := "catalog", letter := some 'c', arity := .many },
  { name := "base-url" },
  { name := "max-depth", accepts := fun s => (depth? s).isSome },
  { name := "flatten-cycles", arity := .none }]

/-- The options of a request for a schema. -/
def schemaForms : List OptionForm := settingsForms ++ [
  { name := "alias", letter := some 'a' },
  { name := "validate", arity := .none },
  { name := "out", letter := some 'o', accepts := fun s => s ≠ "" },
  { name := "no-op", arity := .none }]

/-- The settings that options make. -/
def Settings.ofGiven (g : Given) : Except ArgumentError Settings :=
  if !g.has "catalog" then .error (.missingOption "catalog")
  else .ok {
    catalog := g.values "catalog"
    baseUrl := (g.value? "base-url").getD defaultBase
    maxDepth := ((g.value? "max-depth").bind depth?).getD 64
    flattenCycles := g.has "flatten-cycles" }

/-- The request that options make. -/
def SchemaRequest.ofGiven (g : Given) : Except ArgumentError SchemaRequest := do
  let settings ← Settings.ofGiven g
  match g.value? "alias" with
  | none => throw (.missingOption "alias")
  | some aliasName =>
    return {
      settings, aliasName
      validate := g.has "validate"
      out := g.value? "out"
      noOp := g.has "no-op" }

/-- The names of the commands. -/
def commandNames : List String := ["schema", "aliases", "check", "help"]

/-- What a wish for help about a command leads to. -/
def helpAbout : List String → ArgumentError
  | [] => .help
  | name :: rest =>
    if !commandNames.contains name then .unknownCommand name
    else
      match rest with
      | [] => .help
      | word :: _ => .unknownCommand word

/-- The command that words ask for. -/
def Command.ofArguments : List String → Except ArgumentError Command
  | [] => .error .missingCommand
  | "schema" :: words => do
    return .schema (← SchemaRequest.ofGiven (← readWords schemaForms [] none words))
  | "aliases" :: words => do
    return .aliases (← Settings.ofGiven (← readWords settingsForms [] none words))
  | "check" :: words => do
    return .check (← Settings.ofGiven (← readWords settingsForms [] none words))
  | "help" :: words => .error (helpAbout words)
  | word :: _ =>
    match Word.ofText word with
    | .long name value =>
      .error (if name = "help" && value.isNone then .help else .unexpected word)
    | .short c _ => .error (if c = 'h' then .help else .unexpected word)
    | .endOfOptions => .error .missingCommand
    | .value => .error (.unknownCommand word)

end SchemaTree.CommandLine
