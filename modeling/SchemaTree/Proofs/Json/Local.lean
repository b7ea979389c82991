import SchemaTree.Json.Reader
import SchemaTree.Proofs.FirstFailure

/-!
# Parsers look one character ahead

What a parser returns depends on the characters that it takes, and on the one behind them.

* `Local`: the rest of a text may be **any other that starts in the same way**.
* `Local.bind`: one local parser behind another is local.
* `local_number`, `local_string`, `word_ok`: numbers, strings and words are read by local parsers.
-/

namespace SchemaTree.Json

/-- A blank of a JSON text. -/
def IsBlank (c : Char) : Prop := c = ' ' ∨ c = '\n' ∨ c = '\t' ∨ c = '\r'

theorem isBlank_iff {c : Char} :
    (c = ' ' || c = '\n' || c = '\t' || c = '\r') = true ↔ IsBlank c := by
  simp [IsBlank, or_assoc]

namespace Reader

open Cursor

variable {α β : Type}

/-- A parser is local if what it takes fixes what it returns, given the character behind. -/
def Local (parse : Cursor → Except Fault (α × Cursor)) : Prop :=
  ∀ (c : Cursor) (a : α) (after : Cursor), parse c = .ok (a, after) →
    ∃ taken, c.rest = taken ++ after.rest ∧
      ∀ rest : List Char, rest.head? = after.rest.head? →
        parse ⟨taken ++ rest, c.place⟩ = .ok (a, ⟨rest, after.place⟩)

theorem head?_append_congr {rest rest' : List Char} (taken : List Char)
    (h : rest'.head? = rest.head?) : (taken ++ rest').head? = (taken ++ rest).head? := by
  cases taken with
  | nil => exact h
  | cons c taken => rfl

theorem Local.bind {f : Cursor → Except Fault (α × Cursor)}
    {g : α → Cursor → Except Fault (β × Cursor)} (hf : Local f) (hg : ∀ a, Local (g a)) :
    Local fun c => f c >>= fun x => g x.1 x.2 := by
  intro c b after h
  dsimp only at h
  cases hfc : f c with
  | error fault =>
    rw [hfc] at h
    cases h
  | ok x =>
    obtain ⟨a, middle⟩ := x
    rw [hfc] at h
    obtain ⟨taken, hc, htaken⟩ := hf c a middle hfc
    obtain ⟨taken', hmiddle, htaken'⟩ := hg a middle b after h
    refine ⟨taken ++ taken', by rw [hc, hmiddle, List.append_assoc], fun rest hrest => ?_⟩
    have hhead : (taken' ++ rest).head? = middle.rest.head? := by
      rw [hmiddle]
      exact head?_append_congr taken' hrest
    have hfirst := htaken (taken' ++ rest) hhead
    simp only [List.append_assoc, hfirst]
    exact htaken' rest hrest

theorem Local.pure (f : Place → α) : Local fun c => .ok (f c.place, c) := by
  intro c a after h
  cases h
  exact ⟨[], rfl, fun rest _ => rfl⟩

theorem Local.map {f : Cursor → Except Fault (α × Cursor)} (hf : Local f) (g : α → β) :
    Local fun c => (f c).map fun x => (g x.1, x.2) := by
  have heq : (fun c => (f c).map fun x => (g x.1, x.2)) =
      fun c => f c >>= fun x => .ok (g x.1, x.2) := by
    funext c
    cases f c <;> rfl
  rw [heq]
  exact hf.bind fun a => Local.pure fun _ => g a

/-! ## Blanks and digits -/

theorem skipBlanks_local (c : Cursor) :
    ∃ taken, c.rest = taken ++ c.skipBlanks.rest ∧
      ∀ rest : List Char, rest.head? = c.skipBlanks.rest.head? →
        (⟨taken ++ rest, c.place⟩ : Cursor).skipBlanks = ⟨rest, c.skipBlanks.place⟩ := by
  obtain ⟨cs, place⟩ := c
  simp only [skipBlanks]
  induction cs generalizing place with
  | nil =>
    refine ⟨[], rfl, fun rest hrest => ?_⟩
    rw [skipBlanksFrom, List.head?_nil, List.head?_eq_none_iff] at hrest
    rw [hrest]
    rfl
  | cons d cs ih =>
    by_cases hd : (d = ' ' || d = '\n' || d = '\t' || d = '\r') = true
    · obtain ⟨taken, hcs, htaken⟩ := ih (place.after d)
      rw [skipBlanksFrom, if_pos hd]
      refine ⟨d :: taken, by rw [List.cons_append, ← hcs], fun rest hrest => ?_⟩
      rw [List.cons_append, skipBlanksFrom, if_pos hd]
      exact htaken rest hrest
    · rw [skipBlanksFrom, if_neg hd]
      refine ⟨[], rfl, fun rest hrest => ?_⟩
      obtain ⟨tail, rfl⟩ := List.head?_eq_some_iff.mp hrest
      rw [List.nil_append, skipBlanksFrom, if_neg hd]

theorem digits_local (c : Cursor) :
    ∃ taken, c.rest = taken ++ c.digits.2.rest ∧
      ∀ rest : List Char, rest.head? = c.digits.2.rest.head? →
        (⟨taken ++ rest, c.place⟩ : Cursor).digits = (c.digits.1, ⟨rest, c.digits.2.place⟩) := by
  obtain ⟨cs, place⟩ := c
  simp only [digits]
  induction cs generalizing place with
  | nil =>
    refine ⟨[], rfl, fun rest hrest => ?_⟩
    rw [digitsFrom, List.head?_nil, List.head?_eq_none_iff] at hrest
    rw [hrest]
    rfl
  | cons d cs ih =>
    by_cases hd : d.isDigit = true
    · obtain ⟨taken, hcs, htaken⟩ := ih (place.after d)
      rw [digitsFrom, if_pos hd]
      refine ⟨d :: taken, by rw [List.cons_append, ← hcs], fun rest hrest => ?_⟩
      rw [List.cons_append, digitsFrom, if_pos hd, htaken rest hrest]
    · rw [digitsFrom, if_neg hd]
      refine ⟨[], rfl, fun rest hrest => ?_⟩
      obtain ⟨tail, rfl⟩ := List.head?_eq_some_iff.mp hrest
      rw [List.nil_append, digitsFrom, if_neg hd]

theorem local_digits : Local fun c => .ok c.digits := by
  intro c ds after h
  have hdigits : c.digits = (ds, after) := Except.ok.inj h
  obtain ⟨taken, hc, htaken⟩ := digits_local c
  rw [hdigits] at hc htaken
  exact ⟨taken, hc, fun rest hrest => congrArg _ (htaken rest hrest)⟩

/-! ## Choices by the next character -/

/-- What is found by the next character alone, which is passed over if it is wanted. -/
structure Peeks (mark : Cursor → Option Cursor) : Prop where
  taken : ∀ c c', mark c = some c' → ∃ d, c.rest = d :: c'.rest ∧
    ∀ rest, mark ⟨d :: rest, c.place⟩ = some ⟨rest, c'.place⟩
  left : ∀ c, mark c = none → ∀ rest : List Char, rest.head? = c.rest.head? →
    mark ⟨rest, c.place⟩ = none

theorem pass?_eq_none_iff {wanted : Char} {c : Cursor} :
    pass? wanted c = none ↔ c.rest.head? ≠ some wanted := by
  obtain ⟨rest, place⟩ := c
  cases rest with
  | nil => simp [pass?]
  | cons d rest => simp [pass?]

theorem peeks_pass? (wanted : Char) : Peeks (pass? wanted) where
  taken c c' h := by
    rw [pass?] at h
    split at h
    · rename_i d rest hrest
      split at h
      · rename_i hd
        subst hd
        cases h
        refine ⟨d, hrest, fun rest' => ?_⟩
        simp only [pass?, if_pos]
      · cases h
    · cases h
  left c h rest hrest := by
    rw [pass?_eq_none_iff] at h ⊢
    rwa [hrest]

theorem Peeks.orElse {mark mark' : Cursor → Option Cursor} (hm : Peeks mark) (hm' : Peeks mark') :
    Peeks fun c => mark c <|> mark' c where
  taken c c' h := by
    cases hmark : mark c with
    | some c₁ =>
      rw [hmark] at h
      cases h
      obtain ⟨d, hc, hd⟩ := hm.taken c c' hmark
      refine ⟨d, hc, fun rest => ?_⟩
      rw [hd rest]
      rfl
    | none =>
      rw [hmark] at h
      obtain ⟨d, hc, hd⟩ := hm'.taken c c' h
      refine ⟨d, hc, fun rest => ?_⟩
      rw [hm.left c hmark (d :: rest) (by rw [hc]; rfl)]
      exact hd rest
  left c h rest hrest := by
    cases hmark : mark c with
    | some c₁ =>
      rw [hmark] at h
      cases h
    | none =>
      rw [hmark] at h
      rw [hm.left c hmark rest hrest]
      exact hm'.left c h rest hrest

theorem Local.choose {mark : Cursor → Option Cursor} (hm : Peeks mark)
    {f g : Cursor → Except Fault (α × Cursor)} (hf : Local f) (hg : Local g) :
    Local fun c => match mark c with
      | some c => f c
      | none => g c := by
  intro c a after h
  dsimp only at h
  cases hmark : mark c with
  | some c' =>
    rw [hmark] at h
    obtain ⟨d, hc, hd⟩ := hm.taken c c' hmark
    obtain ⟨taken, hc', htaken⟩ := hf c' a after h
    refine ⟨d :: taken, by rw [hc, hc', List.cons_append], fun rest hrest => ?_⟩
    simp only [List.cons_append, hd]
    exact htaken rest hrest
  | none =>
    rw [hmark] at h
    obtain ⟨taken, hc, htaken⟩ := hg c a after h
    refine ⟨taken, hc, fun rest hrest => ?_⟩
    have hhead : (taken ++ rest).head? = c.rest.head? := by
      rw [hc]
      exact head?_append_congr taken hrest
    simp only [hm.left c hmark _ hhead]
    exact htaken rest hrest

/-! ## Numbers -/

/-- Digits of which there has to be one. -/
def someDigits (atEnd : Complaint) (c : Cursor) : Except Fault (List Nat × Cursor) :=
  match c.digits with
  | ([], after) =>
    if after.rest.isEmpty then .error ⟨atEnd, after.place⟩
    else .error (after.complain .invalidNumber)
  | (ds, after) => .ok (ds, after)

variable (atEnd : Complaint)

theorem local_someDigits : Local (someDigits atEnd) := by
  intro c ds after h
  rw [someDigits] at h
  split at h
  · split at h <;> cases h
  · rename_i ds' after' hne hdigits
    cases h
    obtain ⟨taken, hc, htaken⟩ := local_digits c ds after (congrArg _ hdigits)
    refine ⟨taken, hc, fun rest hrest => ?_⟩
    rw [someDigits, Except.ok.inj (htaken rest hrest)]
    split
    · rename_i heq
      cases heq
      exact (hne rfl).elim
    · rename_i heq
      rw [heq]

theorem local_wholePart : Local (wholePart atEnd) := by
  intro c ds after h
  obtain ⟨cs, place⟩ := c
  rw [wholePart] at h
  split at h
  · cases h
  · rename_i rest hrest
    dsimp only at hrest h
    subst hrest
    split at h
    · cases h
    · rename_i hdigit
      cases h
      refine ⟨['0'], rfl, fun rest' hrest' => ?_⟩
      simp only [List.singleton_append, wholePart, hrest', if_neg hdigit]
  · rename_i d tail hzero hrest
    dsimp only at hrest
    subst hrest
    split at h
    · rename_i hd
      obtain ⟨taken, hc, htaken⟩ := local_digits _ ds after h
      refine ⟨taken, hc, fun rest hrest => ?_⟩
      have hhead : (taken ++ rest).head? = some d := by
        rw [head?_append_congr taken hrest, ← hc]
        rfl
      obtain ⟨tail', heq⟩ := List.head?_eq_some_iff.mp hhead
      have hdigits := htaken rest hrest
      rw [heq] at hdigits ⊢
      simp only [wholePart, hd, if_true]
      exact hdigits
    · cases h

/-- The sign of a number. -/
def sign (c : Cursor) : Except Fault (Bool × Cursor) :=
  match pass? '-' c with
  | some c => .ok (true, c)
  | none => .ok (false, c)

theorem local_sign : Local sign :=
  Local.choose (peeks_pass? '-') (Local.pure fun _ => true) (Local.pure fun _ => false)

theorem local_fractionPart : Local (fractionPart atEnd) := by
  have heq : fractionPart atEnd = fun c =>
      match pass? '.' c with
      | some c => someDigits atEnd c >>= fun x => .ok (some x.1, x.2)
      | none => .ok (none, c) := by
    funext c
    rw [fractionPart]
    cases pass? '.' c with
    | none => rfl
    | some c =>
      simp only [someDigits]
      rcases c.digits with ⟨_ | ⟨d, ds⟩, after⟩
      · dsimp only
        split <;> rfl
      · rfl
  rw [heq]
  exact Local.choose (peeks_pass? '.')
    ((local_someDigits atEnd).bind fun ds => Local.pure fun _ => some ds) (Local.pure fun _ => none)

/-- The sign of an exponent. -/
def exponentSign (c : Cursor) : Except Fault (Bool × Cursor) :=
  match pass? '+' c with
  | some c => .ok (false, c)
  | none => sign c

theorem local_exponentSign : Local exponentSign :=
  Local.choose (peeks_pass? '+') (Local.pure fun _ => false) local_sign

/-- An exponent behind its letter. -/
def exponentDigits (c : Cursor) : Except Fault (Option (Bool × List Nat × Place) × Cursor) :=
  exponentSign c >>= fun x =>
    (Except.ok (x.2.place, x.2) >>= fun y =>
      someDigits atEnd y.2 >>= fun z => .ok (some (x.1, z.1, y.1), z.2))

theorem local_exponentDigits : Local (exponentDigits atEnd) :=
  local_exponentSign.bind fun negative => (Local.pure id).bind fun start =>
    (local_someDigits atEnd).bind fun ds => Local.pure fun _ => some (negative, ds, start)

theorem local_exponentPart : Local (exponentPart atEnd) := by
  have heq : exponentPart atEnd = fun c =>
      match pass? 'e' c <|> pass? 'E' c with
      | some c => exponentDigits atEnd c
      | none => .ok (none, c) := by
    funext c
    rw [exponentPart]
    cases pass? 'e' c <|> pass? 'E' c with
    | none => rfl
    | some c =>
      have hdigits : ∀ (negative : Bool) (c : Cursor),
          (match c.digits with
            | ([], after) =>
              if after.rest.isEmpty then .error ⟨atEnd, after.place⟩
              else .error (after.complain .invalidNumber)
            | (ds, after) => .ok (some (negative, ds, c.place), after) :
              Except Fault (Option (Bool × List Nat × Place) × Cursor)) =
            someDigits atEnd c >>= fun z => .ok (some (negative, z.1, c.place), z.2) := by
        intro negative c
        rw [someDigits]
        rcases c.digits with ⟨_ | ⟨d, ds⟩, after⟩
        · dsimp only
          split <;> rfl
        · rfl
      simp only [exponentDigits, exponentSign, sign]
      cases hplus : pass? '+' c with
      | some c' => exact hdigits false c'
      | none =>
        cases hminus : pass? '-' c with
        | some c' => exact hdigits true c'
        | none => exact hdigits false c
  rw [heq]
  exact Local.choose ((peeks_pass? 'e').orElse (peeks_pass? 'E')) (local_exponentDigits atEnd)
    (Local.pure fun _ => none)

/-- The number of a literal that has been read. -/
def settle (negative : Bool) (whole : List Nat) (fraction : Option (List Nat))
    (exponent : Option (Bool × List Nat × Place)) (c : Cursor) : Except Fault (Number × Cursor) :=
  let reach := exponent.map fun (_, ds, start) =>
    if (Number.exponentOf 0 ds).isSome then c.place
    else ⟨start.line, start.column + exponentReach 0 ds⟩
  match Number.ofLiteral ⟨negative, whole, fraction, exponent.map fun (n, ds, _) => (n, ds)⟩ with
  | some n => .ok (n, c)
  | none => .error ⟨.numberOutOfRange, reach.getD c.place⟩

theorem local_settle (negative : Bool) (whole : List Nat) (fraction : Option (List Nat))
    (exponent : Option (Bool × List Nat × Place)) :
    Local (settle negative whole fraction exponent) := by
  intro c n after h
  rw [settle] at h
  split at h
  · rename_i n' hn
    cases h
    refine ⟨[], rfl, fun rest _ => ?_⟩
    rw [settle, hn]
    rfl
  · cases h

theorem number_eq (c : Cursor) :
    number c = sign c >>= fun w => wholePart .endInValue w.2 >>= fun x =>
      fractionPart .endInValue x.2 >>= fun y => exponentPart .endInValue y.2 >>= fun z =>
        settle w.1 x.1 y.1 z.1 z.2 := by
  rw [number, literal, sign]
  cases pass? '-' c <;> simp only [bind_assoc, pure_bind]
  · rfl
  · rfl

theorem local_number : Local number := by
  rw [funext number_eq]
  exact local_sign.bind fun negative => (local_wholePart .endInValue).bind fun whole =>
    (local_fractionPart .endInValue).bind fun fraction =>
      (local_exponentPart .endInValue).bind fun exponent =>
        local_settle negative whole fraction exponent

theorem Local.length_le {f : Cursor → Except Fault (α × Cursor)} (hf : Local f) {c after : Cursor}
    {a : α} (h : f c = .ok (a, after)) : after.rest.length ≤ c.rest.length := by
  obtain ⟨taken, hc, -⟩ := hf c a after h
  rw [hc, List.length_append]
  exact Nat.le_add_left _ _

theorem wholePart_lt {c after : Cursor} {ds : List Nat}
    (h : wholePart atEnd c = .ok (ds, after)) : after.rest.length < c.rest.length := by
  obtain ⟨cs, place⟩ := c
  rw [wholePart] at h
  split at h
  · cases h
  · rename_i rest hrest
    dsimp only at hrest h
    subst hrest
    split at h
    · cases h
    · cases h
      exact Nat.lt_succ_self _
  · rename_i d tail _ hrest
    dsimp only at hrest
    subst hrest
    split at h
    · rename_i hd
      have hdigits := Except.ok.inj h
      rw [digits, digitsFrom, if_pos hd] at hdigits
      have hle := local_digits.length_le (c := ⟨tail, place.after d⟩) rfl
      cases hdigits
      exact Nat.lt_succ_of_le hle
    · cases h

theorem number_lt {c after : Cursor} {n : Number} (h : number c = .ok (n, after)) :
    after.rest.length < c.rest.length := by
  rw [number_eq] at h
  obtain ⟨w, hw, h⟩ := bind_ok_iff.mp h
  obtain ⟨x, hx, h⟩ := bind_ok_iff.mp h
  obtain ⟨y, hy, h⟩ := bind_ok_iff.mp h
  obtain ⟨z, hz, h⟩ := bind_ok_iff.mp h
  have hsign : w.2.rest.length ≤ c.rest.length := local_sign.length_le hw
  have hwhole : x.2.rest.length < w.2.rest.length := wholePart_lt .endInValue hx
  have hfraction : y.2.rest.length ≤ x.2.rest.length :=
    (local_fractionPart .endInValue).length_le hy
  have hexponent : z.2.rest.length ≤ y.2.rest.length :=
    (local_exponentPart .endInValue).length_le hz
  have hsettle := (local_settle w.1 x.1 y.1 z.1).length_le h
  omega

/-! ## Words and strings -/

theorem word_ok {ws cs : List Char} {place : Place} {after : Cursor}
    (h : word place ws cs = .ok after) :
    cs = ws ++ after.rest ∧ ∀ rest, word place ws (ws ++ rest) = .ok ⟨rest, after.place⟩ := by
  induction ws generalizing cs place with
  | nil =>
    cases h
    exact ⟨rfl, fun rest => rfl⟩
  | cons w ws ih =>
    cases cs with
    | nil => cases h
    | cons c cs =>
      rw [word] at h
      split at h
      · rename_i hc
        subst hc
        obtain ⟨hcs, hrest⟩ := ih h
        refine ⟨by rw [List.cons_append, ← hcs], fun rest => ?_⟩
        rw [List.cons_append, word, if_pos rfl]
        exact hrest rest
      · cases h

theorem local_word (ws : List Char) (a : α) :
    Local fun c => (word c.place ws c.rest).map ((a, ·)) := by
  intro c b after h
  dsimp only at h
  cases hword : word c.place ws c.rest with
  | error fault =>
    rw [hword] at h
    cases h
  | ok after' =>
    rw [hword] at h
    cases h
    obtain ⟨hc, hrest⟩ := word_ok hword
    refine ⟨ws, hc, fun rest _ => ?_⟩
    simp only [hrest]
    rfl

theorem push_ok {c : Char} {parsed : Except Fault (List Char × Cursor)} {cs : List Char}
    {after : Cursor} (h : push c parsed = .ok (cs, after)) :
    ∃ cs', parsed = .ok (cs', after) ∧ cs = c :: cs' := by
  cases parsed with
  | error fault => cases h
  | ok x =>
    obtain ⟨cs', after'⟩ := x
    cases h
    exact ⟨cs', rfl, rfl⟩

theorem stringFrom_ok {place : Place} {text cs : List Char} {after : Cursor}
    (h : stringFrom place text = .ok (cs, after)) :
    ∃ taken, text = taken ++ after.rest ∧
      ∀ rest, stringFrom place (taken ++ rest) = .ok (cs, ⟨rest, after.place⟩) := by
  -- Five cases succeed: the closing quote, an escape by number, two such escapes for one character,
  -- a short escape, and a character that stands for itself.
  fun_induction stringFrom place text generalizing cs
  case case2 place tail =>
    cases h
    exact ⟨['"'], rfl, fun rest => by rw [List.singleton_append, stringFrom]⟩
  case case6 place a b c d tail _ n hn _ hlow hhigh ih =>
    obtain ⟨cs', hcs, rfl⟩ := push_ok h
    obtain ⟨taken, htail, htaken⟩ := ih hcs
    refine ⟨'\\' :: 'u' :: a :: b :: c :: d :: taken, by simp [htail], fun rest => ?_⟩
    simp only [List.cons_append]
    rw [stringFrom, hn]
    dsimp only
    rw [if_neg hlow, if_pos hhigh, htaken]
    rfl
  case case9 place a b c d _ n hn _ hlow hhigh a' b' c' d' tail _ n' hn' _ hpair ih =>
    obtain ⟨cs', hcs, rfl⟩ := push_ok h
    obtain ⟨taken, htail, htaken⟩ := ih hcs
    refine ⟨'\\' :: 'u' :: a :: b :: c :: d :: '\\' :: 'u' :: a' :: b' :: c' :: d' :: taken,
      by simp [htail], fun rest => ?_⟩
    simp only [List.cons_append]
    rw [stringFrom, hn]
    dsimp only
    rw [if_neg hlow, if_neg hhigh]
    simp only [hn', if_neg hpair]
    rw [htaken]
    rfl
  case case13 place e tail _ hu c hc ih =>
    obtain ⟨cs', hcs, rfl⟩ := push_ok h
    obtain ⟨taken, htail, htaken⟩ := ih hcs
    refine ⟨'\\' :: e :: taken, by simp [htail], fun rest => ?_⟩
    simp only [List.cons_append]
    rw [stringFrom, hc]
    · dsimp only
      rw [htaken]
      rfl
    · exact fun _ _ _ _ _ he _ => hu he
    · exact hu
  case case16 place c tail hquote hend _ _ hescape hcontrol ih =>
    obtain ⟨cs', hcs, rfl⟩ := push_ok h
    obtain ⟨taken, htail, htaken⟩ := ih hcs
    have hslash : c ≠ '\\' := by
      intro hc
      cases tail with
      | nil => exact hend hc rfl
      | cons e tail => exact hescape e tail hc rfl
    refine ⟨c :: taken, by simp [htail], fun rest => ?_⟩
    rw [List.cons_append, stringFrom]
    · rw [if_neg hcontrol, htaken]
      rfl
    · exact hquote
    · exact fun hc _ => hslash hc
    · exact fun _ _ _ _ _ hc _ => hslash hc
    · exact fun _ hc _ => hslash hc
    · exact fun _ _ hc _ => hslash hc
  all_goals cases h

theorem local_string : Local string := by
  intro c s after h
  rw [string] at h
  split at h
  · rename_i cs after' hcs
    cases h
    obtain ⟨taken, hc, htaken⟩ := stringFrom_ok hcs
    refine ⟨taken, hc, fun rest _ => ?_⟩
    rw [string, htaken]
  · cases h

end Reader

end SchemaTree.Json
