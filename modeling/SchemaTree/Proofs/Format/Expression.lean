import SchemaTree.Format

/-!
# Expressions for endings

The endings that tell a format can be written as regular expressions.  An `Expression` matches a
part of a text, and what stands before and behind that part decides about its anchors; it is found
in a text if it matches some part of it.

* `matches_iff_of_isPlain`: an expression without anchors and ranges matches what it spells,
  wherever this stands.
* `foundIn_iff`: **an expression at a boundary is found exactly in the names that end there in what
  it spells.**
-/

namespace SchemaTree.Format

/-- A regular expression, as far as endings need it. -/
inductive Expression where
  /-- The beginning of the text. -/
  | start
  /-- The end of the text. -/
  | stop
  | text (s : String)
  /-- One of some characters. -/
  | letters (s : String)
  /-- A character of a range. -/
  | range (first last : Char)
  | both (a b : Expression)
  | either (a b : Expression)
  | maybe (a : Expression)
  | group (a : Expression)

namespace Expression

/-- An expression as it is written. -/
def source : Expression → String
  | start => "^"
  | stop => "$"
  | text s => s
  | letters s => "[" ++ s ++ "]"
  | range first last => "[" ++ first.toString ++ "-" ++ last.toString ++ "]"
  | both a b => a.source ++ b.source
  | either a b => a.source ++ "|" ++ b.source
  | maybe a => a.source ++ "?"
  | group a => "(" ++ a.source ++ ")"

/-- Whether an expression matches a part of a text, between what stands before and behind it. -/
def Matches : Expression → (before part behind : List Char) → Prop
  | start, u, v, _ => u = [] ∧ v = []
  | stop, _, v, w => v = [] ∧ w = []
  | text s, _, v, _ => v = s.toList
  | letters s, _, v, _ => ∃ c ∈ s.toList, v = [c]
  | range first last, _, v, _ => ∃ c, first ≤ c ∧ c ≤ last ∧ v = [c]
  | both a b, u, v, w => ∃ v₁ v₂, v = v₁ ++ v₂ ∧ a.Matches u v₁ (v₂ ++ w) ∧ b.Matches (u ++ v₁) v₂ w
  | either a b, u, v, w => a.Matches u v w ∨ b.Matches u v w
  | maybe a, u, v, w => v = [] ∨ a.Matches u v w
  | group a, u, v, w => a.Matches u v w

/-- Whether an expression matches a part of a text. -/
def FoundIn (e : Expression) (name : List Char) : Prop :=
  ∃ u v w, name = u ++ v ++ w ∧ e.Matches u v w

theorem foundIn_either {a b : Expression} {name : List Char} :
    (either a b).FoundIn name ↔ a.FoundIn name ∨ b.FoundIn name := by
  constructor
  · rintro ⟨u, v, w, hname, h | h⟩
    · exact Or.inl ⟨u, v, w, hname, h⟩
    · exact Or.inr ⟨u, v, w, hname, h⟩
  · rintro (⟨u, v, w, hname, h⟩ | ⟨u, v, w, hname, h⟩)
    · exact ⟨u, v, w, hname, Or.inl h⟩
    · exact ⟨u, v, w, hname, Or.inr h⟩

/-! ## Spellings -/

/-- Whether an expression has neither anchors nor ranges. -/
def isPlain : Expression → Bool
  | start => false
  | stop => false
  | text _ => true
  | letters _ => true
  | range _ _ => false
  | both a b => a.isPlain && b.isPlain
  | either a b => a.isPlain && b.isPlain
  | maybe a => a.isPlain
  | group a => a.isPlain

/-- What an expression spells. -/
def spellings : Expression → List (List Char)
  | text s => [s.toList]
  | letters s => s.toList.map ([·])
  | both a b => a.spellings.flatMap fun v => b.spellings.map (v ++ ·)
  | either a b => a.spellings ++ b.spellings
  | maybe a => [] :: a.spellings
  | group a => a.spellings
  | _ => []

/-- **An expression without anchors and ranges matches what it spells**, wherever this stands. -/
theorem matches_iff_of_isPlain {e : Expression} (h : e.isPlain = true) {u v w : List Char} :
    e.Matches u v w ↔ v ∈ e.spellings := by
  induction e generalizing u v w with
  | start => cases h
  | stop => cases h
  | text s => simp [Matches, spellings]
  | letters s => simp [Matches, spellings, eq_comm]
  | range first last => cases h
  | both a b iha ihb =>
    obtain ⟨ha, hb⟩ := (Bool.and_eq_true _ _).mp h
    simp only [Matches, spellings, iha ha, ihb hb, List.mem_flatMap, List.mem_map]
    constructor
    · rintro ⟨v₁, v₂, rfl, h₁, h₂⟩
      exact ⟨v₁, h₁, v₂, h₂, rfl⟩
    · rintro ⟨v₁, h₁, v₂, h₂, rfl⟩
      exact ⟨v₁, v₂, rfl, h₁, h₂⟩
  | either a b iha ihb =>
    obtain ⟨ha, hb⟩ := (Bool.and_eq_true _ _).mp h
    simp [Matches, spellings, iha ha, ihb hb]
  | maybe a iha => simp [Matches, spellings, iha h]
  | group a iha => exact iha h

end Expression

/-! ## Boundaries -/

open Expression

/-- Where an ending may begin: as a word, as a hump, or anywhere. -/
inductive Boundary where
  | word
  | hump
  | tail
  deriving DecidableEq

/-- Whether a name ends in an ending that begins at a boundary. -/
def Boundary.Ends : Boundary → (name ending : List Char) → Prop
  | word, name, ending => name = ending ∨ '_' :: ending <:+ name
  | hump, name, ending => ∃ u c, name = u ++ c :: ending ∧ 'a' ≤ c ∧ c ≤ 'z'
  | tail, name, ending => ending <:+ name

/-- An expression up to the end of a text, from a boundary on. -/
def Boundary.expression (e : Expression) : Boundary → Expression
  | word => both (group (either start (text "_"))) (both e stop)
  | hump => both (range 'a' 'z') (both e stop)
  | tail => both e stop

theorem Boundary.Ends.suffix {b : Boundary} {name ending : List Char} (h : b.Ends name ending) :
    ending <:+ name := by
  cases b with
  | word =>
    rcases h with rfl | h
    · exact List.suffix_refl _
    · exact (List.suffix_cons _ _).trans h
  | hump =>
    obtain ⟨u, c, rfl, -⟩ := h
    exact ⟨u ++ [c], by simp⟩
  | tail => exact h

/-- **An ending stays one behind an underscore and anything before.** -/
theorem Boundary.Ends.prefixed {b : Boundary} {name ending : List Char} (h : b.Ends name ending)
    (p : List Char) : b.Ends (p ++ '_' :: name) ending := by
  cases b with
  | word =>
    rcases h with rfl | h
    · exact Or.inr (List.suffix_append _ _)
    · exact Or.inr (h.trans ⟨p ++ ['_'], by simp⟩)
  | hump =>
    obtain ⟨u, c, rfl, hc⟩ := h
    exact ⟨p ++ '_' :: u, c, by simp, hc⟩
  | tail => exact List.IsSuffix.trans h ⟨p ++ ['_'], by simp⟩

theorem matches_both_stop {e : Expression} {u v w : List Char} :
    (both e stop).Matches u v w ↔ e.Matches u v [] ∧ w = [] := by
  constructor
  · rintro ⟨v₁, v₂, rfl, he, rfl, rfl⟩
    rw [List.append_nil]
    exact ⟨he, rfl⟩
  · rintro ⟨he, rfl⟩
    exact ⟨v, [], (List.append_nil v).symm, he, rfl, rfl⟩

/-- **An expression at a boundary is found exactly in the names that end there in what it spells.**
-/
theorem foundIn_iff {e : Expression} (h : e.isPlain = true) (b : Boundary) {name : List Char} :
    (b.expression e).FoundIn name ↔ ∃ ending ∈ e.spellings, b.Ends name ending := by
  cases b with
  | word =>
    constructor
    · rintro ⟨u, _, _, rfl, v₁, v₂, rfl, hboundary, hrest⟩
      obtain ⟨he, rfl⟩ := matches_both_stop.mp hrest
      rw [matches_iff_of_isPlain h] at he
      refine ⟨v₂, he, ?_⟩
      rcases hboundary with ⟨rfl, rfl⟩ | hline
      · exact Or.inl (by simp)
      · have hline : v₁ = ['_'] := hline
        exact Or.inr ⟨u, by simp [hline]⟩
    · rintro ⟨ending, he, rfl | ⟨u, rfl⟩⟩
      · refine ⟨[], name, [], by simp, [], name, rfl, Or.inl ⟨rfl, rfl⟩, ?_⟩
        exact matches_both_stop.mpr ⟨(matches_iff_of_isPlain h).mpr he, rfl⟩
      · refine ⟨u, '_' :: ending, [], by simp, ['_'], ending, rfl, Or.inr rfl, ?_⟩
        exact matches_both_stop.mpr ⟨(matches_iff_of_isPlain h).mpr he, rfl⟩
  | hump =>
    constructor
    · rintro ⟨u, _, _, rfl, _, v₂, rfl, ⟨c, hfirst, hlast, rfl⟩, hrest⟩
      obtain ⟨he, rfl⟩ := matches_both_stop.mp hrest
      exact ⟨v₂, (matches_iff_of_isPlain h).mp he, u, c, by simp, hfirst, hlast⟩
    · rintro ⟨ending, he, u, c, rfl, hfirst, hlast⟩
      refine ⟨u, c :: ending, [], by simp, [c], ending, rfl, ⟨c, hfirst, hlast, rfl⟩, ?_⟩
      exact matches_both_stop.mpr ⟨(matches_iff_of_isPlain h).mpr he, rfl⟩
  | tail =>
    constructor
    · rintro ⟨u, v, _, rfl, hrest⟩
      obtain ⟨he, rfl⟩ := matches_both_stop.mp hrest
      exact ⟨v, (matches_iff_of_isPlain h).mp he, u, by simp⟩
    · rintro ⟨ending, he, u, rfl⟩
      refine ⟨u, ending, [], by simp, ?_⟩
      exact matches_both_stop.mpr ⟨(matches_iff_of_isPlain h).mpr he, rfl⟩

end SchemaTree.Format
