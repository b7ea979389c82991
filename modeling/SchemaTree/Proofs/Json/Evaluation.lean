import SchemaTree.Proofs.Json.Distinct
import SchemaTree.Proofs.Json.Pointer

/-!
# Evaluation of pointers

What a pointer refers to is found as RFC 6901 says: its text is split at slashes, in each part `~1` is
replaced by `/` and after that `~0` by `~`, and the parts lead from value to value, as keys of objects
and as indices of arrays.

* `Pointer.resolve?`: the value that the text of a pointer refers to in a document.
* `Pointer.replacements_eq_unescape`: the two replacements, in this order, read escapes one after the
  other.
* `Pointer.resolve?_text`: **the text of keys leads along these keys.**
-/

namespace SchemaTree.Json.Pointer

/-- Replaces each `~` that stands before a character, together with it, by another character. -/
def replaceEscape (digit plain : Char) : List Char → List Char
  | '~' :: c :: cs =>
    if c = digit then plain :: replaceEscape digit plain cs
    else '~' :: replaceEscape digit plain (c :: cs)
  | c :: cs => c :: replaceEscape digit plain cs
  | [] => []

/-- The token that a part of a pointer stands for: first `~1` is replaced, and then `~0`. -/
def token (part : List Char) : String :=
  String.ofList (replaceEscape '0' '~' (replaceEscape '1' '/' part))

/-- The index that a token stands for: digits without a leading zero. -/
def index? (token : String) : Option Nat :=
  if token.toList.all Char.isDigit ∧ (token = "0" ∨ token.toList.head? ≠ some '0') then
    token.toNat?
  else none

/-- The value in an object or an array that a token refers to. -/
def step? : Value → String → Option Value
  | .object ms, token => Members.get? ms token
  | .array items, token => (index? token).bind (items[·]?)
  | _, _ => none

/-- **The value that the text of a pointer refers to**: the whole document if the text is empty, else
what its parts lead to, each of which has a slash before it. -/
def resolve? (doc : Value) (pointer : String) : Option Value :=
  match pointer.toList.splitOn '/' with
  | [] :: parts => (parts.map token).foldlM step? doc
  | _ => none

/-! ## Escapes -/

section

variable {digit plain c d : Char} {cs : List Char}

theorem replaceEscape_match : replaceEscape digit plain ('~' :: digit :: cs) =
    plain :: replaceEscape digit plain cs := by
  rw [replaceEscape, if_pos rfl]

theorem replaceEscape_tilde (h : cs.head? ≠ some digit) :
    replaceEscape digit plain ('~' :: cs) = '~' :: replaceEscape digit plain cs := by
  cases cs with
  | nil => rfl
  | cons c cs =>
    rw [replaceEscape, if_neg]
    rintro rfl
    exact h rfl

theorem replaceEscape_cons (h : c ≠ '~') :
    replaceEscape digit plain (c :: cs) = c :: replaceEscape digit plain cs := by
  rw [replaceEscape]
  rintro c' cs' hc
  exact absurd hc h

theorem head?_replaceEscape (hplain : plain ≠ d) (h : cs.head? ≠ some d) :
    (replaceEscape digit plain cs).head? ≠ some d := by
  cases cs with
  | nil => exact h
  | cons c cs =>
    have hc : some c ≠ some d := h
    by_cases htilde : c = '~'
    · subst htilde
      by_cases hcs : cs.head? = some digit
      · obtain ⟨rest, rfl⟩ := List.head?_eq_some_iff.mp hcs
        rw [replaceEscape_match, List.head?_cons]
        exact fun heq => hplain (Option.some.inj heq)
      · rwa [replaceEscape_tilde hcs]
    · rwa [replaceEscape_cons htilde]

end

/-- **Replacing `~1` and then `~0` reads the escapes one after the other.**  In the other order
`~01` would become a slash. -/
theorem replacements_eq_unescape (cs : List Char) :
    replaceEscape '0' '~' (replaceEscape '1' '/' cs) = unescape cs := by
  fun_induction unescape cs with
  | case1 cs ih =>
    have hone : replaceEscape '1' '/' ('~' :: '0' :: cs) =
        '~' :: '0' :: replaceEscape '1' '/' cs := by
      rw [replaceEscape_tilde (by simp), replaceEscape_cons (by decide)]
    rw [hone, replaceEscape_match, ih]
  | case2 cs ih => rw [replaceEscape_match, replaceEscape_cons (by decide), ih]
  | case3 c cs hzero hone ih =>
    by_cases htilde : c = '~'
    · subst htilde
      have hhead : ∀ d, (∀ rest, cs = d :: rest → False) → cs.head? ≠ some d := by
        intro d hd hcs
        obtain ⟨rest, hrest⟩ := List.head?_eq_some_iff.mp hcs
        exact hd rest hrest
      -- The first replacement must not leave a zero behind the tilde.
      have hkept : (replaceEscape '1' '/' cs).head? ≠ some '0' :=
        head?_replaceEscape (by decide) (hhead '0' fun rest => hzero rest rfl)
      rw [replaceEscape_tilde (hhead '1' fun rest => hone rest rfl), replaceEscape_tilde hkept, ih]
    · rw [replaceEscape_cons htilde, replaceEscape_cons htilde, ih]
  | case4 => rfl

theorem token_segment (key : String) : token (key.toList.flatMap Check.escapeChar) = key := by
  rw [token, replacements_eq_unescape, unescape_flatMap, String.ofList_toList]

/-- **The text of keys leads along these keys.** -/
theorem resolve?_text (doc : Value) (keys : List String) :
    resolve? doc (text keys) = keys.foldlM step? doc := by
  have htokens : (keys.map fun key => key.toList.flatMap Check.escapeChar).map token = keys := by
    rw [List.map_map]
    exact (List.map_congr_left fun key _ => token_segment key).trans (List.map_id keys)
  rw [resolve?, splitOn_text]
  dsimp only
  rw [htokens]

end SchemaTree.Json.Pointer
