import SchemaTree.Check
import SchemaTree.Proofs.Json.Members

/-!
# Pointers into documents

A pointer is a list of keys.  As a text it is written as RFC 6901 says: a slash before each key, and
`~` and `/` within a key escaped.

* `Pointer.parse_text`: **the keys can be read back from the text**, whatever characters they have.
* `Pointer.find?`: the value that a pointer leads to, from object to object.
* `Pointer.all`: the pointers of a document, in its order.
* `Pointer.text_append`: how the pointers of the properties and of the items of a node are made.
-/

namespace SchemaTree.Json.Pointer

/-- A pointer as a text. -/
def text : List String → String
  | [] => ""
  | key :: keys => "/" ++ Check.segment key ++ text keys

/-- The characters that a segment stands for. -/
def unescape : List Char → List Char
  | '~' :: '0' :: cs => '~' :: unescape cs
  | '~' :: '1' :: cs => '/' :: unescape cs
  | c :: cs => c :: unescape cs
  | [] => []

/-- The keys in the text of a pointer. -/
def parse (s : String) : List String :=
  (s.toList.splitOn '/').tail.map fun cs => String.ofList (unescape cs)

/-- The value that a pointer leads to. -/
def find? : Value → List String → Option Value
  | v, [] => some v
  | .object ms, key :: keys => (Members.get? ms key).bind (find? · keys)
  | _, _ :: _ => none

mutual

/-- The pointers to all values of a document that stand in objects, in the order of the document:
each value before those inside it. -/
def all : Value → List (List String)
  | .object ms => [] :: allMembers ms
  | _ => [[]]

def allMembers : Members → List (List String)
  | [] => []
  | (key, v) :: ms => (all v).map (key :: ·) ++ allMembers ms

end

/-! ## Reading keys back -/

theorem unescape_cons {c : Char} (h : c ≠ '~') (cs : List Char) :
    unescape (c :: cs) = c :: unescape cs := by
  rw [unescape]
  · rintro cs' rfl
    exact absurd rfl h
  · rintro cs' rfl
    exact absurd rfl h

theorem escapeChar_of_ne {c : Char} (htilde : c ≠ '~') (hslash : c ≠ '/') :
    Check.escapeChar c = [c] := by
  unfold Check.escapeChar
  split
  · exact absurd rfl htilde
  · exact absurd rfl hslash
  · rfl

/-- **Escaping is undone.** -/
theorem unescape_flatMap (cs : List Char) : unescape (cs.flatMap Check.escapeChar) = cs := by
  induction cs with
  | nil => rfl
  | cons c cs ih =>
    rw [List.flatMap_cons]
    by_cases htilde : c = '~'
    · subst htilde
      exact congrArg (List.cons '~') ih
    · by_cases hslash : c = '/'
      · subst hslash
        exact congrArg (List.cons '/') ih
      · rw [escapeChar_of_ne htilde hslash, List.singleton_append, unescape_cons htilde, ih]

theorem slash_not_mem_flatMap (cs : List Char) : '/' ∉ cs.flatMap Check.escapeChar := by
  rw [List.mem_flatMap]
  rintro ⟨c, -, hc⟩
  by_cases htilde : c = '~'
  · subst htilde
    exact absurd hc (by decide)
  · by_cases hslash : c = '/'
    · subst hslash
      exact absurd hc (by decide)
    · rw [escapeChar_of_ne htilde hslash, List.mem_singleton] at hc
      exact hslash hc.symm

theorem toList_text (keys : List String) :
    (text keys).toList =
      ['/'].intercalate ([] :: keys.map fun key => key.toList.flatMap Check.escapeChar) := by
  induction keys with
  | nil => rfl
  | cons key keys ih =>
    rw [text, String.toList_append, String.toList_append, ih, Check.segment, String.toList_ofList]
    cases keys with
    | nil => simp [List.intercalate]
    | cons key' keys => simp [List.intercalate]

theorem splitOn_text (keys : List String) : (text keys).toList.splitOn '/' =
    [] :: keys.map fun key => key.toList.flatMap Check.escapeChar := by
  rw [toList_text]
  refine List.splitOn_intercalate '/' ?_ (List.cons_ne_nil _ _)
  refine List.forall_mem_cons.mpr ⟨List.not_mem_nil, fun cs hcs => ?_⟩
  obtain ⟨key, -, rfl⟩ := List.mem_map.mp hcs
  exact slash_not_mem_flatMap key.toList

/-- **The keys can be read back from the text of a pointer.** -/
theorem parse_text (keys : List String) : parse (text keys) = keys := by
  have hkey : ∀ key ∈ keys, String.ofList (unescape (key.toList.flatMap Check.escapeChar)) =
      id key := by
    intro key _
    rw [unescape_flatMap, String.ofList_toList, id]
  rw [parse, splitOn_text, List.tail_cons, List.map_map]
  exact (List.map_congr_left hkey).trans (List.map_id keys)

/-! ## Longer pointers -/

theorem text_append (keys keys' : List String) : text (keys ++ keys') = text keys ++ text keys' := by
  induction keys with
  | nil => rw [List.nil_append, text, String.empty_append]
  | cons key keys ih =>
    rw [List.cons_append, text, ih, text, String.append_assoc, String.append_assoc,
      String.append_assoc]

theorem propertyPointer_text (keys : List String) (name : String) :
    Check.propertyPointer (text keys) name = text (keys ++ ["properties", name]) := by
  have hsegment : "/" ++ Check.segment "properties" = "/properties" := by decide
  have hslash : "/properties/" = "/properties" ++ "/" := by decide
  rw [text_append, text, text, text, hsegment, Check.propertyPointer, hslash, String.append_empty,
    String.append_assoc, String.append_assoc]

theorem itemsPointer_text (keys : List String) :
    Check.itemsPointer (text keys) = text (keys ++ ["items"]) := by
  have hsegment : "/" ++ Check.segment "items" = "/items" := by decide
  rw [text_append, text, text, hsegment, Check.itemsPointer, String.append_empty]

theorem isEmpty_text_append (keys : List String) {keys' : List String} (h : keys' ≠ []) :
    (text (keys ++ keys')).isEmpty = false := by
  rw [Bool.eq_false_iff, ne_eq, String.isEmpty_iff]
  intro hempty
  have hkeys := parse_text (keys ++ keys')
  rw [hempty] at hkeys
  exact List.append_ne_nil_of_right_ne_nil keys h hkeys.symm

theorem find?_append (doc : Value) (keys keys' : List String) :
    find? doc (keys ++ keys') = (find? doc keys).bind (find? · keys') := by
  induction keys generalizing doc with
  | nil => rw [List.nil_append, find?, Option.bind_some]
  | cons key keys ih =>
    cases doc with
    | object ms =>
      rw [List.cons_append, find?, find?]
      cases Members.get? ms key with
      | none => rfl
      | some v => exact ih v
    | _ => rfl

/-! ## The order of a document -/

theorem sublist_allMembers {ms : Members} {key : String} {v : Value}
    (h : Members.get? ms key = some v) : ((all v).map (key :: ·)).Sublist (allMembers ms) := by
  induction ms with
  | nil => cases h
  | cons e ms ih =>
    obtain ⟨k, w⟩ := e
    rw [Members.get?_cons] at h
    rw [allMembers]
    split at h
    · rename_i hk
      cases h
      rw [hk]
      exact List.sublist_append_left _ _
    · exact (ih h).trans (List.sublist_append_right _ _)

theorem allMembers_eq (ms : Members) :
    allMembers ms = ms.flatMap fun e => (all e.2).map (e.1 :: ·) := by
  induction ms with
  | nil => rfl
  | cons e ms ih =>
    obtain ⟨key, v⟩ := e
    rw [allMembers, ih, List.flatMap_cons]

end SchemaTree.Json.Pointer
