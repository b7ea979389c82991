import SchemaTree.Pattern.Parser
import SchemaTree.Pattern.Program

/-!
# Patterns

Documents may hold regular expressions.  They are checked, not run.

* `rejection`: why a text is no pattern.
-/

namespace SchemaTree.Pattern

/-- The measure of the program of a text. -/
def program (text : String) : Except Error Program := do
  let node ← parse text
  node.program

/-- What is said of a program that takes too much room. -/
def tooBig : String :=
  "Compiled regex exceeds size limit of " ++ toString programLimit ++ " bytes."

/-- Why a text is no pattern: it cannot be read, it asks for what is not there, or its program
takes too much room. -/
def rejection (text : String) : Option String :=
  match program text with
  | .error e => some (e.report text)
  | .ok p => if programLimit < p.bytes then some tooBig else none

end SchemaTree.Pattern
