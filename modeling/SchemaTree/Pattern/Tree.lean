import SchemaTree.Pattern.Error

/-!
# Patterns as trees

What the text of a pattern says, with the spans that a later check may blame.
-/

namespace SchemaTree.Pattern

/-- A flag that changes how the rest of a group is read. -/
inductive Flag where
  | caseInsensitive
  | multiLine
  | dotAll
  | swapGreed
  | unicode
  | crlf
  | verbose
  deriving DecidableEq, Repr

/-- Flags as written; `none` is the minus that turns those after it off. -/
abbrev Flags := List (Option Flag × Span)

/-- Whether flags turn a flag on or off. -/
def Flags.state (flag : Flag) : Flags → Option Bool
  | [] => none
  | (none, _) :: rest => if rest.any (·.1 = some flag) then some false else none
  | (some f, _) :: rest => if f = flag then some true else Flags.state flag rest

/-- A literal character; `isByte` if it is written as a byte of two digits. -/
structure Literal where
  span : Span
  char : Char
  isByte : Bool := false
  deriving Repr, Inhabited

/-- The classes with a letter of their own. -/
inductive Shorthand where
  | digit
  | blank
  | word
  deriving DecidableEq, Repr

/-- What a class of characters is looked up by. -/
inductive Query where
  | name (name : String)
  | value (property value : String)
  deriving DecidableEq, Repr

mutual

/-- What stands between the brackets of a class. -/
inductive ClassSet where
  | item (i : ClassItem)
  | op (span : Span) (left right : ClassSet)

/-- A part of a class. -/
inductive ClassItem where
  | empty (span : Span)
  | literal (l : Literal)
  | range (span : Span) (first last : Literal)
  | ascii (span : Span) (negated : Bool)
  | property (span : Span) (negated : Bool) (query : Query)
  | shorthand (span : Span) (negated : Bool) (kind : Shorthand)
  | bracketed (span : Span) (negated : Bool) (set : ClassSet)
  | union (span : Span) (items : List ClassItem)

end

/-- A pattern. -/
inductive Node where
  | empty (span : Span)
  | flags (span : Span) (flags : Flags)
  | literal (l : Literal)
  | dot (span : Span)
  | assertion (span : Span)
  | property (span : Span) (negated : Bool) (query : Query)
  | shorthand (span : Span) (negated : Bool) (kind : Shorthand)
  | bracketed (span : Span) (negated : Bool) (set : ClassSet)
  | repetition (span : Span) (min : Nat) (max : Option Nat) (body : Node)
  | group (span : Span) (captures : Bool) (flags : Flags) (body : Node)
  | alternation (span : Span) (branches : List Node)
  | concat (span : Span) (parts : List Node)

instance : Inhabited ClassItem := ⟨.empty default⟩
instance : Inhabited ClassSet := ⟨.item default⟩
instance : Inhabited Node := ⟨.empty default⟩

namespace ClassItem

def span : ClassItem → Span
  | empty s => s
  | literal l => l.span
  | range s _ _ => s
  | ascii s _ => s
  | property s _ _ => s
  | shorthand s _ _ => s
  | bracketed s _ _ => s
  | union s _ => s

/-- Items side by side as one item; a union spans its items. -/
def ofItems (here : Span) : List ClassItem → ClassItem
  | [] => empty here
  | [i] => i
  | i :: is => union ⟨i.span.start, ((i :: is).getLast?.getD i).span.stop⟩ (i :: is)

end ClassItem

def ClassSet.span : ClassSet → Span
  | item i => i.span
  | op s _ _ => s

namespace Node

def span : Node → Span
  | empty s => s
  | flags s _ => s
  | literal l => l.span
  | dot s => s
  | assertion s => s
  | property s _ _ => s
  | shorthand s _ _ => s
  | bracketed s _ _ => s
  | repetition s _ _ _ => s
  | group s _ _ _ => s
  | alternation s _ => s
  | concat s _ => s

/-- Parts one after the other as one pattern. -/
def ofParts (span : Span) : List Node → Node
  | [] => empty span
  | [n] => n
  | ns => concat span ns

/-- Branches side by side as one pattern. -/
def ofBranches (span : Span) : List Node → Node
  | [] => empty span
  | [n] => n
  | ns => alternation span ns

end Node

/-! ## Nesting -/

/-- Steps into a bracket below `depth` others. -/
def enter (depth : Nat) (span : Span) (inside : Nat → Except Error Unit) : Except Error Unit :=
  if depth + 1 > nestLimit then .error ⟨.nestLimitExceeded, span, none⟩ else inside (depth + 1)

mutual

def ClassSet.checkNesting (depth : Nat) : ClassSet → Except Error Unit
  | .item i => i.checkNesting depth
  | .op span left right =>
    enter depth span fun d => do
      left.checkNesting d
      right.checkNesting d

def ClassItem.checkNesting (depth : Nat) : ClassItem → Except Error Unit
  | .bracketed span _ set => enter depth span fun d => set.checkNesting d
  | .union span items => enter depth span fun d => checkItemsNesting d items
  | _ => .ok ()

def checkItemsNesting (depth : Nat) : List ClassItem → Except Error Unit
  | [] => .ok ()
  | i :: is => do
    i.checkNesting depth
    checkItemsNesting depth is

end

mutual

/-- Checks that no more brackets, repetitions, sequences and choices stand within each other than
the limit allows. -/
def Node.checkNesting (depth : Nat) : Node → Except Error Unit
  | .bracketed span _ set => enter depth span fun d => set.checkNesting d
  | .repetition span _ _ body => enter depth span fun d => body.checkNesting d
  | .group span _ _ body => enter depth span fun d => body.checkNesting d
  | .alternation span branches => enter depth span fun d => checkAllNesting d branches
  | .concat span parts => enter depth span fun d => checkAllNesting d parts
  | _ => .ok ()

def checkAllNesting (depth : Nat) : List Node → Except Error Unit
  | [] => .ok ()
  | n :: ns => do
    n.checkNesting depth
    checkAllNesting depth ns

end

end SchemaTree.Pattern
