import SchemaTree.Proofs.Catalog.Accepted
import SchemaTree.Proofs.Json.Members

/-!
# The language of catalogs

Which definitions make a catalog, said without the loops that build one.

* `NamesType`: the words that can be aliases.
* `Definitions.Denotes`: the shape that a type word denotes, with the word for its items.  Each
  form of a field has one rule.
* `Definitions.WellFormed`: the definitions that make a catalog, and `Definitions.Stores`: the type
  that is made of a definition.
* `Definitions.FirstOffence`: what is wrong with other definitions: first the aliases count, then
  the fields, each from the first on.

`build_exact` puts all this together: **a catalog is built of well-formed definitions and of no
others, it stores what they denote, and else the first offence is reported.**
-/

namespace SchemaTree

open Json

/-! ## Words -/

/-- A Latin letter without marks, or an underscore. -/
def BeginsWord (c : Char) : Prop := ('A' ≤ c ∧ c ≤ 'Z') ∨ ('a' ≤ c ∧ c ≤ 'z') ∨ c = '_'

/-- A text that can name a type: one of `[A-Za-z_][A-Za-z0-9_]*` that is the name of no kind. -/
structure NamesType (s : String) : Prop where
  word : ∃ c rest, s.toList = c :: rest ∧ BeginsWord c ∧
    ∀ d ∈ rest, BeginsWord d ∨ ('0' ≤ d ∧ d ≤ '9')
  free : ∀ k : Kind, s ≠ k.name

theorem isAliasStart_iff {c : Char} : isAliasStart c = true ↔ BeginsWord c := by
  have hupper : c.isUpper = true ↔ 'A' ≤ c ∧ c ≤ 'Z' := decide_eq_true_iff
  have hlower : c.isLower = true ↔ 'a' ≤ c ∧ c ≤ 'z' := by
    change (decide ('a' ≤ c) && decide (c ≤ 'z')) = true ↔ _
    rw [Bool.and_eq_true, decide_eq_true_iff, decide_eq_true_iff]
  have hletter : c.isAlpha = (c.isUpper || c.isLower) := rfl
  rw [isAliasStart, BeginsWord, hletter, Bool.or_eq_true, Bool.or_eq_true, hupper, hlower,
    decide_eq_true_iff, or_assoc]

theorem isDigit_iff {c : Char} : c.isDigit = true ↔ '0' ≤ c ∧ c ≤ '9' := by
  simp [Char.isDigit, Char.le_def]

theorem isWord_iff {s : String} :
    isWord s = true ↔ ∃ c rest, s.toList = c :: rest ∧ BeginsWord c ∧
      ∀ d ∈ rest, BeginsWord d ∨ ('0' ≤ d ∧ d ≤ '9') := by
  rw [isWord]
  cases s.toList with
  | nil => simp
  | cons c rest => simp [isAliasStart_iff, isDigit_iff]

/-- **What the test of an alias says.** -/
theorem namesType_iff {s : String} :
    NamesType s ↔ (!isWord s || (Kind.ofName? s).isSome) = false := by
  rw [Bool.or_eq_false_iff, Bool.not_eq_false', isWord_iff, Option.isSome_eq_false_iff,
    Option.isNone_iff_eq_none, Kind.ofName?_eq_none]
  exact ⟨fun h => ⟨h.word, h.free⟩, fun h => ⟨h.1, h.2⟩⟩

namespace Definitions

/-! ## Aliases -/

/-- The aliases of definitions with their identities. -/
def identities (defs : Definitions) : Aliases := defs.map fun e => (e.1, e.2.identity e.1)

/-- The aliases can name types, and no two identities are the same. -/
structure Named (defs : Definitions) : Prop where
  words : ∀ e ∈ defs, NamesType e.1
  distinct : (defs.map fun e => e.2.identity e.1).Nodup

/-! ## Fields -/

/-- The shape that the type word of a field and the word for its items denote. A word other than
the name of a kind denotes the type of its definition. -/
inductive Denotes (defs : Definitions) : String → Option String → Shape → Prop
  | kind (k : Kind) (hk : k ≠ .array) : Denotes defs k.name none (.kind k)
  | entity {word : String} {d : TypeDefinition} (hw : ∀ k : Kind, word ≠ k.name)
      (hd : Members.get? defs word = some d) : Denotes defs word none (.entity (d.identity word))
  | collection : Denotes defs "array" none (.collection (.kind .any))
  | kinds (k : Kind) (hk : k ≠ .array) : Denotes defs "array" (some k.name) (.collection (.kind k))
  | entities {word : String} {d : TypeDefinition} (hw : ∀ k : Kind, word ≠ k.name)
      (hd : Members.get? defs word = some d) :
      Denotes defs "array" (some word) (.collection (.entity (d.identity word)))
  | object {word : String} {d : TypeDefinition} (hd : Members.get? defs word = some d) :
      Denotes defs "object" (some word) (.entity (d.identity word))

/-- No two fields have the same name, and the words of each denote a shape. -/
structure Shaped (defs : Definitions) (fields : List FieldDefinition) : Prop where
  names : (fields.map (·.name)).Nodup
  shapes : ∀ f ∈ fields, ∃ sh, defs.Denotes f.type f.items sh

/-- **The definitions that make a catalog.** -/
structure WellFormed (defs : Definitions) : Prop where
  named : defs.Named
  shaped : ∀ e ∈ defs, defs.Shaped e.2.fields

/-- The declared field that is made of a definition. -/
def StoresField (defs : Definitions) (f : FieldDefinition) (d : Descriptor) : Prop :=
  d.name = f.name ∧ d.annotations = f.annotations ∧ defs.Denotes f.type f.items d.shape

/-- **The type that is made of a definition**: its alias, identity and description, and its fields
in order. -/
structure Stores (defs : Definitions) (e : String × TypeDefinition) (t : CatalogType) : Prop where
  aliasName : t.aliasName = e.1
  identity : t.identity = e.2.identity e.1
  description : t.description = e.2.description
  fields : List.Forall₂ defs.StoresField e.2.fields t.fields

/-! ## Offences -/

/-- The word of a field that names a type or a kind. -/
inductive Mentions (f : FieldDefinition) : String → Prop
  | type (hi : f.items = none) : Mentions f f.type
  | items {word : String} (ht : f.type = "array" ∨ f.type = "object")
      (hi : f.items = some word) : Mentions f word

/-- What is wrong with words that denote no shape: a reference dangles exactly if the word that it
mentions names neither a kind nor a type. -/
inductive Misuse (defs : Definitions) (owner : String) (f : FieldDefinition) : CatalogError → Prop
  | dangling {word : String} (hw : Mentions f word) (hk : ∀ k : Kind, word ≠ k.name)
      (ha : Members.get? defs word = none) :
      Misuse defs owner f (.danglingReference owner f.name word)
  | nested (ht : f.type = "array") (hi : f.items = some "array") :
      Misuse defs owner f (.unusableType owner f.name
        "arrays of arrays must wrap the inner array in an entity")
  | kind (k : Kind) (ht : f.type = "object") (hi : f.items = some k.name)
      (ha : Members.get? defs k.name = none) :
      Misuse defs owner f (.unusableType owner f.name
        ("`items: " ++ k.name ++ "` on an object must name an entity"))
  | stray {word : String} (ha : f.type ≠ "array") (ho : f.type ≠ "object")
      (hi : f.items = some word) :
      Misuse defs owner f (.unusableType owner f.name
        ("`items: " ++ word ++ "` is only valid on arrays and objects"))

/-- What is wrong with a definition behind others: its alias, or else its identity. -/
inductive AliasOffence (before : Definitions) (aliasName : String) (d : TypeDefinition) :
    CatalogError → Prop
  | invalid (h : ¬ NamesType aliasName) : AliasOffence before aliasName d (.invalidAlias aliasName)
  | duplicate (h : NamesType aliasName)
      (hd : d.identity aliasName ∈ before.map fun e => e.2.identity e.1) :
      AliasOffence before aliasName d (.duplicateAlias (d.identity aliasName).name)

/-- What is wrong with a field behind others: its name, or else its words. -/
inductive FieldOffence (defs : Definitions) (owner : String) (before : List FieldDefinition)
    (f : FieldDefinition) : CatalogError → Prop
  | duplicate (h : f.name ∈ before.map (·.name)) :
      FieldOffence defs owner before f (.duplicateField owner f.name)
  | shape (h : f.name ∉ before.map (·.name)) {e : CatalogError} (he : defs.Misuse owner f e) :
      FieldOffence defs owner before f e

/-- **The first offence in definitions**: that of the first alias that offends behind those before
it, or, if there is none, that of the first field that does in the first type that has one. -/
inductive FirstOffence (defs : Definitions) (e : CatalogError) : Prop
  | atAlias {before after : Definitions} {aliasName : String} {d : TypeDefinition}
      (hdefs : defs = before ++ (aliasName, d) :: after) (hbefore : before.Named)
      (he : AliasOffence before aliasName d e)
  | atField {before after : Definitions} {aliasName : String} {d : TypeDefinition}
      {earlier later : List FieldDefinition} {f : FieldDefinition}
      (hdefs : defs = before ++ (aliasName, d) :: after) (hnamed : defs.Named)
      (hbefore : ∀ e ∈ before, defs.Shaped e.2.fields)
      (hfields : d.fields = earlier ++ f :: later) (hearlier : defs.Shaped earlier)
      (he : FieldOffence defs aliasName earlier f e)

/-! ## Words are read as they denote -/

theorem get?_identities {defs : Definitions} {word : String} :
    Members.get? defs.identities word =
      (Members.get? defs word).map (·.identity word) := by
  induction defs with
  | nil => rfl
  | cons e defs ih =>
    obtain ⟨aliasName, d⟩ := e
    have hcons : identities ((aliasName, d) :: defs) =
        (aliasName, d.identity aliasName) :: identities defs := rfl
    rw [hcons, Members.get?_cons, Members.get?_cons, ih]
    by_cases h : aliasName = word
    · rw [if_pos h, if_pos h, h, Option.map_some]
    · rw [if_neg h, if_neg h]

section

variable {aliases : Aliases} {defs : Definitions} {owner field word : String}
  {items : Option String} {type : String} {sh : Shape} {f : FieldDefinition} {e : CatalogError}

theorem ofWord_kind (k : Kind) : Shape.ofWord aliases owner field k.name = .ok (.kind k) := by
  rw [Shape.ofWord, Kind.ofName?_name]

theorem ofWord_of_ne (hw : ∀ k : Kind, word ≠ k.name) :
    Shape.ofWord aliases owner field word =
      match Members.get? aliases word with
      | some target => .ok (.entity target)
      | none => .error (.danglingReference owner field word) := by
  have hname : Kind.ofName? word = none := Kind.ofName?_eq_none.mpr hw
  cases hget : Members.get? aliases word <;> simp only [Shape.ofWord, hname, hget]

theorem ofWord_entity {d : TypeDefinition} (hw : ∀ k : Kind, word ≠ k.name)
    (hd : Members.get? defs word = some d) :
    Shape.ofWord defs.identities owner field word = .ok (.entity (d.identity word)) := by
  rw [ofWord_of_ne hw, get?_identities, hd]
  rfl

theorem ofWord_dangling (hw : ∀ k : Kind, word ≠ k.name) (hd : Members.get? defs word = none) :
    Shape.ofWord defs.identities owner field word =
      .error (.danglingReference owner field word) := by
  rw [ofWord_of_ne hw, get?_identities, hd]
  rfl

theorem ofItems_some (h : word ≠ "array") :
    Shape.ofItems aliases owner field (some word) = Shape.ofWord aliases owner field word := by
  rw [Shape.ofItems.eq_def]
  split
  · contradiction
  · rename_i heq
    exact absurd (Option.some.inj heq) h
  · rename_i heq
    rw [Option.some.inj heq]

theorem ofWords_none (h : type ≠ "array") :
    Shape.ofWords aliases owner field type none = Shape.ofWord aliases owner field type := by
  rw [Shape.ofWords.eq_def]
  split
  · exact absurd rfl h
  · contradiction
  · contradiction
  · rfl

theorem ofWords_stray (ha : type ≠ "array") (ho : type ≠ "object") :
    Shape.ofWords aliases owner field type (some word) = .error (.unusableType owner field
      ("`items: " ++ word ++ "` is only valid on arrays and objects")) := by
  rw [Shape.ofWords.eq_def]
  split
  · exact absurd rfl ha
  · exact absurd rfl ho
  · rename_i heq
    rw [Option.some.inj heq]
  · contradiction

/-- **Words are read as the shape that they denote.** -/
theorem Denotes.ofWords (h : defs.Denotes type items sh) :
    Shape.ofWords defs.identities owner field type items = .ok sh := by
  cases h with
  | kind k hk =>
    have hne : k.name ≠ "array" := by cases k <;> first | decide | exact absurd rfl hk
    rw [ofWords_none hne, ofWord_kind]
  | entity hw hd => rw [ofWords_none (hw .array), ofWord_entity hw hd]
  | collection => rfl
  | kinds k hk =>
    have hne : k.name ≠ "array" := by cases k <;> first | decide | exact absurd rfl hk
    rw [Shape.ofWords, ofItems_some hne, ofWord_kind]
    rfl
  | entities hw hd =>
    rw [Shape.ofWords, ofItems_some (hw .array), ofWord_entity hw hd]
    rfl
  | object hd =>
    rw [Shape.ofWords, get?_identities, hd]
    rfl

/-- **Words that denote no shape are refused for their misuse.** -/
theorem Misuse.ofWords (h : defs.Misuse owner f e) :
    Shape.ofWords defs.identities owner f.name f.type f.items = .error e := by
  cases h with
  | dangling hw hk ha =>
    cases hw with
    | type hi => rw [hi, ofWords_none (hk .array), ofWord_dangling hk ha]
    | items ht hi =>
      rcases ht with ht | ht
      · rw [ht, hi, Shape.ofWords, ofItems_some (hk .array), ofWord_dangling hk ha]
        rfl
      · rw [ht, hi, Shape.ofWords, get?_identities, ha]
        simp [Kind.ofName?_eq_none.mpr hk]
  | nested ht hi =>
    rw [ht, hi]
    rfl
  | kind k ht hi ha =>
    rw [ht, hi, Shape.ofWords, get?_identities, ha]
    simp [Kind.ofName?_name]
  | stray ha ho hi => rw [hi, ofWords_stray ha ho]

/-- **Words denote a shape or are misused.** -/
theorem denotes_or_misuse (defs : Definitions) (owner : String) (f : FieldDefinition) :
    (∃ sh, defs.Denotes f.type f.items sh) ∨ ∃ e, defs.Misuse owner f e := by
  have hkind : ∀ word : String, (∃ k : Kind, word = k.name) ∨ ∀ k : Kind, word ≠ k.name := by
    intro word
    by_cases h : ∃ k : Kind, word = k.name
    · exact Or.inl h
    · exact Or.inr fun k hk => h ⟨k, hk⟩
  -- The word for the items decides first, since only `array` and `object` may have one.
  cases hi : f.items with
  | none =>
    by_cases ht : f.type = "array"
    · rw [ht]
      exact Or.inl ⟨_, Denotes.collection⟩
    · rcases hkind f.type with ⟨k, hk⟩ | hk
      · rw [hk] at ht ⊢
        exact Or.inl ⟨_, Denotes.kind k fun hka => ht (hka ▸ rfl)⟩
      · cases hd : Members.get? defs f.type with
        | some d => exact Or.inl ⟨_, Denotes.entity hk hd⟩
        | none => exact Or.inr ⟨_, Misuse.dangling (Mentions.type hi) hk hd⟩
  | some word =>
    by_cases ht : f.type = "array"
    · by_cases hw : word = "array"
      · exact Or.inr ⟨_, Misuse.nested ht (hw ▸ hi)⟩
      · rw [ht]
        rcases hkind word with ⟨k, rfl⟩ | hk
        · exact Or.inl ⟨_, Denotes.kinds k fun hka => hw (hka ▸ rfl)⟩
        · cases hd : Members.get? defs word with
          | some d => exact Or.inl ⟨_, Denotes.entities hk hd⟩
          | none => exact Or.inr ⟨_, Misuse.dangling (Mentions.items (Or.inl ht) hi) hk hd⟩
    · by_cases ho : f.type = "object"
      · cases hd : Members.get? defs word with
        | some d =>
          rw [ho]
          exact Or.inl ⟨_, Denotes.object hd⟩
        | none =>
          rcases hkind word with ⟨k, rfl⟩ | hk
          · exact Or.inr ⟨_, Misuse.kind k ho hi hd⟩
          · exact Or.inr ⟨_, Misuse.dangling (Mentions.items (Or.inr ho) hi) hk hd⟩
      · exact Or.inr ⟨_, Misuse.stray ht ho hi⟩

theorem ofWords_ok_iff :
    Shape.ofWords defs.identities owner f.name f.type f.items = .ok sh ↔
      defs.Denotes f.type f.items sh := by
  constructor
  · intro h
    rcases denotes_or_misuse defs owner f with ⟨sh', hsh⟩ | ⟨e, he⟩
    · rw [hsh.ofWords] at h
      cases h
      exact hsh
    · rw [he.ofWords] at h
      cases h
  · exact fun h => h.ofWords

theorem ofWords_error_iff :
    Shape.ofWords defs.identities owner f.name f.type f.items = .error e ↔
      defs.Misuse owner f e := by
  constructor
  · intro h
    rcases denotes_or_misuse defs owner f with ⟨sh, hsh⟩ | ⟨e', he⟩
    · rw [hsh.ofWords] at h
      cases h
    · rw [he.ofWords] at h
      cases h
      exact he
  · exact fun h => h.ofWords

end

end Definitions

end SchemaTree
