/-!
# Log records

What a run tells about itself on the side.
-/

namespace SchemaTree

/-- The level of a record. -/
inductive Level where
  | info
  | debug
  | trace
  deriving DecidableEq, Repr

def Level.name : Level → String
  | info => "INFO"
  | debug => "DEBUG"
  | trace => "TRACE"

/-- A record. -/
structure Record where
  level : Level
  text : String
  deriving DecidableEq, Repr

/-- A record on one line. -/
def Record.line (r : Record) : String := r.level.name ++ " " ++ r.text

/-- The records of a run, in order. -/
abbrev Log := List Record

/-- An optional value for people who debug. -/
def optionLabel {α : Type} (label : α → String) : Option α → String
  | some a => "Some(" ++ label a ++ ")"
  | none => "None"

end SchemaTree
