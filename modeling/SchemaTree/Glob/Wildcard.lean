/-!
# Wildcards

A wildcard is a text that stands for names: `?` is any character, `*` any number
of them, and brackets hold those that are meant, or with `!` in front those that
are not; a minus between two characters means all from the one to the other.
A part `**` stands for any number of directories and must be a part of its own.
There are no escapes: a bracket is meant by itself within brackets.

* `Wildcard.ofText`: the tokens of a text, or where it goes wrong.
* `Wildcard.accepts`: whether a name is meant.
-/

namespace SchemaTree.Glob

/-- Why a text is no wildcard. -/
inductive Cause where
  | manyStars
  | starsWithinPart
  | badBrackets
  deriving DecidableEq, Repr

/-- A text that is no wildcard: why, and near which character. -/
structure Fault where
  position : Nat
  cause : Cause
  deriving DecidableEq, Repr

/-- The wording of a fault. -/
def Fault.message (f : Fault) : String :=
  let what := match f.cause with
    | .manyStars => "wildcards are either regular `*` or recursive `**`"
    | .starsWithinPart => "recursive wildcards must form a single path component"
    | .badBrackets => "invalid range pattern"
  "Pattern syntax error near position " ++ toString f.position ++ ": " ++ what

/-- Characters from one to another. -/
structure Range where
  first : Char
  last : Char
  deriving DecidableEq, Repr

def Range.contains (r : Range) (c : Char) : Bool := r.first ≤ c && c ≤ r.last

/-- The ranges that a text between brackets lists. -/
def ranges : List Char → List Range
  | a :: '-' :: b :: rest => ⟨a, b⟩ :: ranges rest
  | a :: rest => ⟨a, a⟩ :: ranges rest
  | [] => []

/-- A part of a wildcard. -/
inductive Token where
  | character (c : Char)
  | any
  | within (ranges : List Range)
  | without (ranges : List Range)
  | sequence
  | directories
  deriving DecidableEq, Repr

/-- A name with holes. -/
abbrev Wildcard := List Token

namespace Wildcard

/-! ## Reading -/

/-- A text behind an opening bracket, cut at the bracket that closes it: whether it is negated, what
is between the brackets, and what is behind. -/
def brackets? (text : List Char) : Option (Bool × List Char × List Char) :=
  let (negated, body) := match text with
    | '!' :: body => (true, body)
    | body => (false, body)
  match body with
  | [] => none
  | c :: rest =>
    if rest.contains ']' then
      some (negated, c :: rest.takeWhile (· ≠ ']'), (rest.dropWhile (· ≠ ']')).tail)
    else none

theorem length_tail_dropWhile_le (p : Char → Bool) (cs : List Char) :
    ((cs.dropWhile p).tail).length ≤ cs.length := by
  calc ((cs.dropWhile p).tail).length ≤ (cs.dropWhile p).length := (List.tail_sublist _).length_le
    _ ≤ cs.length := (List.dropWhile_sublist p).length_le

theorem length_of_brackets? {text inner rest : List Char} {negated : Bool}
    (h : brackets? text = some (negated, inner, rest)) : rest.length ≤ text.length := by
  unfold brackets? at h
  split at h
  next negated' body hbody =>
    have hle : body.length ≤ text.length := by
      split at hbody
      · cases hbody
        exact Nat.le_succ _
      · cases hbody
        exact Nat.le_refl _
    cases body with
    | nil => cases h
    | cons c body =>
      dsimp only at h
      split at h
      · cases h
        calc ((body.dropWhile (· ≠ ']')).tail).length ≤ body.length := length_tail_dropWhile_le _ _
          _ ≤ text.length := Nat.le_of_succ_le hle
      · cases h

/-- The tokens of a text from a position on; `start` tells whether a part begins there. -/
def tokensFrom (position : Nat) (start : Bool) (text : List Char) : Except Fault Wildcard :=
  match text with
  | [] => .ok []
  | '?' :: rest => (Token.any :: ·) <$> tokensFrom (position + 1) false rest
  | '*' :: '*' :: '*' :: _ => .error ⟨position + 2, .manyStars⟩
  | '*' :: '*' :: rest =>
    if !start then .error ⟨position - 1, .starsWithinPart⟩
    else
      match rest with
      | [] => .ok [.directories]
      | '/' :: rest => (Token.directories :: ·) <$> tokensFrom (position + 3) true rest
      | _ => .error ⟨position + 2, .starsWithinPart⟩
  | '*' :: rest => (Token.sequence :: ·) <$> tokensFrom (position + 1) false rest
  | '[' :: rest =>
    match h : brackets? rest with
    | none => .error ⟨position, .badBrackets⟩
    | some (negated, inner, behind) =>
      have := length_of_brackets? h
      let token := if negated then Token.without (ranges inner) else .within (ranges inner)
      (token :: ·) <$> tokensFrom (position + (rest.length + 1 - behind.length)) false behind
  | c :: rest => (Token.character c :: ·) <$> tokensFrom (position + 1) (c = '/') rest
termination_by text.length

/-- The tokens of a text. -/
def ofText (text : List Char) : Except Fault Wildcard := tokensFrom 0 true text

/-! ## Matching -/

/-- What can be left of a text after any number of characters. -/
def suffixes : List Char → List (List Char)
  | [] => [[]]
  | c :: cs => (c :: cs) :: suffixes cs

/-- Whether a name is meant. -/
def accepts : Wildcard → List Char → Bool
  | [], name => name.isEmpty
  | .sequence :: ts, name => (suffixes name).any (accepts ts)
  | .directories :: ts, name => (suffixes name).any (accepts ts)
  | .character c :: ts, d :: ds => c = d && accepts ts ds
  | .any :: ts, _ :: ds => accepts ts ds
  | .within rs :: ts, d :: ds => rs.any (·.contains d) && accepts ts ds
  | .without rs :: ts, d :: ds => !rs.any (·.contains d) && accepts ts ds
  | _ :: _, [] => false

/-- The only name that a wildcard without holes means. -/
def name? : Wildcard → Option (List Char)
  | [] => some []
  | .character c :: ts => (name? ts).map (c :: ·)
  | _ :: _ => none

/-- Whether a wildcard stands for any number of directories. -/
def isDirectories (w : Wildcard) : Bool := w.contains .directories

/-- Whether a wildcard begins with a point. -/
def beginsWithPoint (w : Wildcard) : Bool := w.head? = some (.character '.')

/-- A wildcard without holes means its name only. -/
theorem accepts_of_name? {w : Wildcard} {name : List Char} (h : name? w = some name)
    (s : List Char) : accepts w s = decide (s = name) := by
  induction w generalizing name s with
  | nil =>
    simp only [name?, Option.some.injEq] at h
    subst h
    cases s <;> rfl
  | cons t ts ih =>
    cases t with
    | character c =>
      obtain ⟨rest, hrest, rfl⟩ := Option.map_eq_some_iff.1 h
      cases s with
      | nil => simp [accepts]
      | cons d ds =>
        by_cases hcd : c = d
        · simp [accepts, ih hrest, hcd]
        · simp [accepts, hcd, Ne.symm hcd]
    | _ => simp [name?] at h

end Wildcard

end SchemaTree.Glob
