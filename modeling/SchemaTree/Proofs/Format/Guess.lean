import Mathlib.Data.List.Perm.Basic
import SchemaTree.Proofs.FirstFailure
import SchemaTree.Proofs.Format.Expression

/-!
# Guesses of formats

A `Heuristic` is a regular expression for the endings of names that tell one format.  The four
heuristics say the same as the rules for formats (`foundIn_iff_tells`).

* `not_tells_of_tells`: **no name has endings of two rules**, since no ending of one rule ends in an
  ending of another.
* `guess_prefixed`: **so guesses do not depend on the order of the heuristics, and what a name
  tells, it also tells behind an underscore.**
-/

namespace SchemaTree.Format

open Expression

/-! ## The endings of rules -/

/-- The endings of a rule, with the boundaries at which they begin. -/
def Rule.endings (r : Rule) : List (Boundary × List Char) :=
  r.words.map (.word, ·.toList) ++ r.humps.map (.hump, ·.toList) ++ r.tails.map (.tail, ·.toList)

theorem endsInWord_iff {name word : List Char} :
    endsInWord name word = true ↔ Boundary.word.Ends name word := by
  simp [endsInWord, Boundary.Ends]

theorem take_length_sub (u v : List Char) : (u ++ v).take ((u ++ v).length - v.length) = u := by
  rw [List.length_append, Nat.add_sub_cancel, List.take_left' rfl]

theorem endsInHump_iff {name hump : List Char} :
    endsInHump name hump = true ↔ Boundary.hump.Ends name hump := by
  rw [endsInHump, Bool.and_eq_true, List.isSuffixOf_iff_suffix]
  constructor
  · rintro ⟨⟨u, rfl⟩, h⟩
    rw [take_length_sub] at h
    cases hlast : u.getLast? with
    | none =>
      rw [hlast] at h
      cases h
    | some c =>
      rw [hlast] at h
      obtain ⟨v, rfl⟩ := List.getLast?_eq_some_iff.mp hlast
      exact ⟨v, c, by simp, by simpa using h⟩
  · rintro ⟨u, c, rfl, hc⟩
    refine ⟨⟨u ++ [c], by simp⟩, ?_⟩
    rw [List.append_cons, take_length_sub, List.getLast?_concat]
    simpa using hc

/-- **A rule tells the format of the names that end in one of its endings.** -/
theorem tells_iff {r : Rule} {name : String} :
    r.tells name = true ↔ ∃ e ∈ r.endings, e.1.Ends name.toList e.2 := by
  simp only [Rule.tells, Bool.or_eq_true, List.any_eq_true, endsInWord_iff, endsInHump_iff,
    Rule.endings, List.mem_append, List.mem_map]
  constructor
  · rintro ((⟨w, hw, h⟩ | ⟨w, hw, h⟩) | ⟨w, hw, h⟩)
    · exact ⟨(.word, w.toList), Or.inl (Or.inl ⟨w, hw, rfl⟩), h⟩
    · exact ⟨(.hump, w.toList), Or.inl (Or.inr ⟨w, hw, rfl⟩), h⟩
    · exact ⟨(.tail, w.toList), Or.inr ⟨w, hw, rfl⟩, List.isSuffixOf_iff_suffix.mp h⟩
  · rintro ⟨_, (⟨w, hw, rfl⟩ | ⟨w, hw, rfl⟩) | ⟨w, hw, rfl⟩, h⟩
    · exact Or.inl (Or.inl ⟨w, hw, h⟩)
    · exact Or.inl (Or.inr ⟨w, hw, h⟩)
    · exact Or.inr ⟨w, hw, List.isSuffixOf_iff_suffix.mpr h⟩

/-! ## Rules do not compete -/

/-- Whether no ending of one rule ends in an ending of another. -/
def Rule.Apart (r s : Rule) : Prop :=
  ∀ e ∈ r.endings, ∀ f ∈ s.endings, ¬ e.2 <:+ f.2 ∧ ¬ f.2 <:+ e.2

instance (r s : Rule) : Decidable (r.Apart s) :=
  inferInstanceAs (Decidable (∀ e ∈ r.endings, ∀ f ∈ s.endings, ¬ e.2 <:+ f.2 ∧ ¬ f.2 <:+ e.2))

theorem rules_apart : rules.Pairwise Rule.Apart := by decide +kernel

theorem Rule.Apart.not_tells {r s : Rule} (h : r.Apart s) {name : String} :
    ¬ (r.tells name = true ∧ s.tells name = true) := by
  rintro ⟨hr, hs⟩
  obtain ⟨e, he, hename⟩ := tells_iff.mp hr
  obtain ⟨f, hf, hfname⟩ := tells_iff.mp hs
  obtain ⟨hef, hfe⟩ := h e he f hf
  rcases List.suffix_or_suffix_of_suffix hename.suffix hfname.suffix with hsuffix | hsuffix
  · exact hef hsuffix
  · exact hfe hsuffix

theorem not_tells_of_tells (name : String) :
    rules.Pairwise fun r s => ¬ (r.tells name = true ∧ s.tells name = true) :=
  rules_apart.imp fun h => h.not_tells

/-- **Among rules of which at most one tells a format, their order does not matter.** -/
theorem find?_tells_perm {name : String} {table others : List Rule} (hperm : table.Perm others)
    (h : others.Pairwise fun r s => ¬ (r.tells name = true ∧ s.tells name = true)) :
    table.find? (·.tells name) = others.find? (·.tells name) := by
  induction hperm with
  | nil => rfl
  | cons r _ ih => simp only [List.find?_cons, ih (List.Pairwise.of_cons h)]
  | swap r s rest =>
    have hfirst := List.rel_of_pairwise_cons h List.mem_cons_self
    cases hr : r.tells name with
    | true =>
      have hs : s.tells name = false := Bool.eq_false_iff.mpr fun hs => hfirst ⟨hr, hs⟩
      simp [hr, hs]
    | false => simp [List.find?_cons, hr]
  | trans hperm hperm' ih ih' =>
    have hsymm : ∀ r s : Rule, ¬ (r.tells name = true ∧ s.tells name = true) →
        ¬ (s.tells name = true ∧ r.tells name = true) := fun r s hrs hsr => hrs hsr.symm
    rw [ih ((hperm'.pairwise_iff @hsymm).mpr h), ih' h]

theorem find?_tells_eq_some_iff {name : String} {r : Rule} :
    rules.find? (·.tells name) = some r ↔ r ∈ rules ∧ r.tells name = true := by
  constructor
  · intro h
    exact ⟨List.mem_of_find?_eq_some h, List.find?_some (p := fun r : Rule => r.tells name) h⟩
  · rintro ⟨hmem, hr⟩
    obtain ⟨before, behind, hsplit⟩ := List.append_of_mem hmem
    have hperm : (r :: (before ++ behind)).Perm rules := hsplit ▸ List.perm_middle.symm
    rw [← find?_tells_perm hperm (not_tells_of_tells name)]
    exact List.find?_cons_of_pos hr

theorem guess_eq_some_iff {name f : String} :
    guess name = some f ↔ ∃ r ∈ rules, r.format = f ∧ r.tells name = true := by
  rw [guess, Option.map_eq_some_iff]
  simp only [find?_tells_eq_some_iff]
  constructor
  · rintro ⟨r, ⟨hmem, hr⟩, rfl⟩
    exact ⟨r, hmem, rfl, hr⟩
  · rintro ⟨r, hmem, rfl, hr⟩
    exact ⟨r, ⟨hmem, hr⟩, rfl⟩

/-! ## Heuristics -/

/-- A regular expression for the endings of names that tell a format: alternatives, each at a
boundary. -/
structure Heuristic where
  format : String
  first : Boundary × Expression
  others : List (Boundary × Expression)

namespace Heuristic

/-- Alternatives as one expression. -/
def join (first : Boundary × Expression) : List (Boundary × Expression) → Expression
  | [] => first.1.expression first.2
  | second :: rest => either (first.1.expression first.2) (join second rest)

/-- The whole expression. -/
def expression (h : Heuristic) : Expression := join h.first h.others

/-- The endings that a heuristic spells, with the boundaries at which they begin. -/
def endings (h : Heuristic) : List (Boundary × List Char) :=
  (h.first :: h.others).flatMap fun (b, e) => e.spellings.map (b, ·)

/-- Whether a heuristic matches a part of a name. -/
def FoundIn (h : Heuristic) (name : String) : Prop := h.expression.FoundIn name.toList

theorem foundIn_join {first : Boundary × Expression} {others : List (Boundary × Expression)}
    (h : ∀ a ∈ first :: others, a.2.isPlain = true) {name : List Char} :
    (join first others).FoundIn name ↔
      ∃ a ∈ first :: others, ∃ ending ∈ a.2.spellings, a.1.Ends name ending := by
  induction others generalizing first with
  | nil => simpa [join] using foundIn_iff (h first List.mem_cons_self) first.1
  | cons second rest ih =>
    obtain ⟨hfirst, hrest⟩ := List.forall_mem_cons.mp h
    rw [join, foundIn_either, foundIn_iff hfirst, ih hrest]
    simp only [List.mem_cons, exists_eq_or_imp]

theorem foundIn_iff_ends {h : Heuristic} (hplain : ∀ a ∈ h.first :: h.others, a.2.isPlain = true)
    {name : String} : h.FoundIn name ↔ ∃ e ∈ h.endings, e.1.Ends name.toList e.2 := by
  rw [FoundIn, expression, foundIn_join hplain]
  constructor
  · rintro ⟨a, ha, ending, hending, hends⟩
    have hmem : (a.1, ending) ∈ h.endings :=
      List.mem_flatMap.mpr ⟨a, ha, List.mem_map.mpr ⟨ending, hending, rfl⟩⟩
    exact ⟨(a.1, ending), hmem, hends⟩
  · rintro ⟨e, he, hends⟩
    obtain ⟨a, ha, he⟩ := List.mem_flatMap.mp he
    obtain ⟨ending, hending, rfl⟩ := List.mem_map.mp he
    exact ⟨a, ha, ending, hending, hends⟩

end Heuristic

/-- Addresses of electronic mail. -/
def mail : Heuristic where
  format := "email"
  first := (.word, both (maybe (letters "Ee"))
    (both (letters "Mm") (both (text "ail") (maybe (group (text "_address"))))))
  others := [(.hump, text "Email")]

/-- Addresses of what can be looked up. -/
def link : Heuristic where
  format := "uri"
  first := (.word, group (either (text "url") (either (text "uri") (either (text "href")
    (either (text "homepage") (text "website"))))))
  others := [(.hump, group (either (text "Url") (either (text "Uri") (text "Href"))))]

/-- Points in time. -/
def moment : Heuristic where
  format := "date-time"
  first := (.word, both (group (either (text "created") (either (text "updated")
    (either (text "deleted") (text "published"))))) (text "_at"))
  others := [(.word, text "timestamp"), (.hump, text "At")]

/-- Days. -/
def day : Heuristic where
  format := "date"
  first := (.word, group (either (text "date") (either (text "birthday") (text "birth_date"))))
  others := [(.tail, text "_on"), (.hump, text "Date")]

/-- The heuristics, in the order in which they are tried. -/
def heuristics : List Heuristic := [mail, link, moment, day]

/-- What the heuristics look like. -/
def sources : List String := [
  "(^|_)[Ee]?[Mm]ail(_address)?$|[a-z]Email$",
  "(^|_)(url|uri|href|homepage|website)$|[a-z](Url|Uri|Href)$",
  "(^|_)(created|updated|deleted|published)_at$|(^|_)timestamp$|[a-z]At$",
  "(^|_)(date|birthday|birth_date)$|_on$|[a-z]Date$"]

theorem source_heuristics : heuristics.map (·.expression.source) = sources := by
  decide +kernel

/-! ## Heuristics and rules -/

/-- A heuristic and a rule tell one format by the same endings. -/
structure Heuristic.Says (h : Heuristic) (r : Rule) : Prop where
  format : h.format = r.format
  plain : ∀ a ∈ h.first :: h.others, a.2.isPlain = true
  spelled : ∀ e ∈ h.endings, e ∈ r.endings
  listed : ∀ e ∈ r.endings, e ∈ h.endings

instance (h : Heuristic) (r : Rule) : Decidable (h.Says r) :=
  decidable_of_iff (_ ∧ _ ∧ _ ∧ _)
    ⟨fun ⟨format, plain, spelled, listed⟩ => ⟨format, plain, spelled, listed⟩,
      fun h => ⟨h.format, h.plain, h.spelled, h.listed⟩⟩

theorem heuristics_say : List.Forall₂ Heuristic.Says heuristics rules := by
  refine .cons ?_ (.cons ?_ (.cons ?_ (.cons ?_ .nil)))
  all_goals decide +kernel

/-- **A heuristic is found in the names of which its rule tells the format.** -/
theorem Heuristic.Says.foundIn_iff_tells {h : Heuristic} {r : Rule} (hrule : h.Says r)
    {name : String} : h.FoundIn name ↔ r.tells name = true := by
  rw [Heuristic.foundIn_iff_ends hrule.plain, tells_iff]
  constructor
  · rintro ⟨e, he, hends⟩
    exact ⟨e, hrule.spelled e he, hends⟩
  · rintro ⟨e, he, hends⟩
    exact ⟨e, hrule.listed e he, hends⟩

/-! ## Guesses -/

theorem pairwise_of_says {hs : List Heuristic} {rs : List Rule}
    (hmatch : List.Forall₂ Heuristic.Says hs rs) {name : String}
    (h : rs.Pairwise fun r s => ¬ (r.tells name = true ∧ s.tells name = true)) :
    hs.Pairwise fun g h => ¬ (g.FoundIn name ∧ h.FoundIn name) := by
  induction hmatch with
  | nil => exact .nil
  | @cons g r hs rs hgr hmatch ih =>
    obtain ⟨hr, hrs⟩ := List.pairwise_cons.mp h
    refine .cons (fun k hk hboth => ?_) (ih hrs)
    obtain ⟨s, hs, hks : k.Says s⟩ := exists_of_forall₂ hmatch.flip k hk
    exact hr s hs ⟨hgr.foundIn_iff_tells.mp hboth.1, hks.foundIn_iff_tells.mp hboth.2⟩

theorem guess_eq_some_iff_foundIn {name f : String} :
    guess name = some f ↔ ∃ h ∈ heuristics, h.format = f ∧ h.FoundIn name := by
  rw [guess_eq_some_iff]
  constructor
  · rintro ⟨r, hr, rfl, htells⟩
    obtain ⟨h, hh, hrule⟩ := exists_of_forall₂ heuristics_say r hr
    exact ⟨h, hh, hrule.format, hrule.foundIn_iff_tells.mpr htells⟩
  · rintro ⟨h, hh, rfl, hfound⟩
    obtain ⟨r, hr, hrule : h.Says r⟩ := exists_of_forall₂ heuristics_say.flip h hh
    exact ⟨r, hr, hrule.format.symm, hrule.foundIn_iff_tells.mp hfound⟩

/-- **What a rule tells of a name, it tells behind an underscore and anything before.** -/
theorem Rule.tells_prefixed {r : Rule} {name : String} (h : r.tells name = true) (p : String) :
    r.tells (p ++ "_" ++ name) = true := by
  obtain ⟨e, he, hends⟩ := tells_iff.mp h
  refine tells_iff.mpr ⟨e, he, ?_⟩
  have hlist : (p ++ "_" ++ name).toList = p.toList ++ '_' :: name.toList := by simp
  rw [hlist]
  exact hends.prefixed p.toList

/-- **At most one of the heuristics is found in a name, and its format is the guess; so the order of
the table does not matter, and a name tells behind an underscore what it tells alone.** -/
theorem guess_prefixed :
    heuristics.map (·.expression.source) = sources ∧
      (∀ name, heuristics.Pairwise fun g h => ¬ (g.FoundIn name ∧ h.FoundIn name)) ∧
      (∀ name f, guess name = some f ↔ ∃ h ∈ heuristics, h.format = f ∧ h.FoundIn name) ∧
      (∀ table : List Rule, table.Perm rules → ∀ name,
        (table.find? (·.tells name)).map (·.format) = guess name) ∧
      ∀ p name f, guess name = some f → guess (p ++ "_" ++ name) = some f := by
  refine ⟨source_heuristics,
    fun name => pairwise_of_says heuristics_say (not_tells_of_tells name),
    fun _ _ => guess_eq_some_iff_foundIn, fun table hperm name => ?_, fun p name f h => ?_⟩
  · rw [find?_tells_perm hperm (not_tells_of_tells name), guess]
  · obtain ⟨r, hr, rfl, htells⟩ := guess_eq_some_iff.mp h
    exact guess_eq_some_iff.mpr ⟨r, hr, rfl, Rule.tells_prefixed htells p⟩

/-- A moment behind prefixes, in a table the other way round. -/
theorem guess_prefixed_published :
    guess "publishedAt" = some "date-time" ∧
      guess ("first" ++ "_" ++ "publishedAt") = some "date-time" ∧
      (rules.reverse.find? (·.tells "publishedAt")).map (·.format) = guess "publishedAt" := by
  have hguess : guess "publishedAt" = some "date-time" := by decide +kernel
  exact ⟨hguess, guess_prefixed.2.2.2.2 "first" "publishedAt" "date-time" hguess,
    guess_prefixed.2.2.2.1 rules.reverse rules.reverse_perm "publishedAt"⟩

end SchemaTree.Format
