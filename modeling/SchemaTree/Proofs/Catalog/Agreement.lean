import SchemaTree.Catalog.Build
import SchemaTree.Proofs.Json.Alike

/-!
# Catalogs in texts and in memory

A catalog can be loaded from a text or from a value in memory.  The text is decoded while it is read,
with places, and its annotations only after the rest of their fields; but **a text that repeats no key
makes the same catalog as the value it denotes**, or is refused for the same reason.

* `FieldDefinition.placeFree_decode`, `TypeDefinition.placeFree_decode`,
  `Definitions.placeFree_decode`: places make no difference to what is decoded.
* `Catalog.LoadsAlike`: results of loading a catalog that do not differ but in the wording of why a
  document is malformed.
* `Catalog.ofText_ofValue`: texts and values are loaded alike.
-/

namespace SchemaTree

open Json

/-! ## Definitions -/

namespace FieldDefinition

theorem placeFree_add (d : Draft) (key : String) : PlaceFree (d.add key) := by
  intro r
  unfold Draft.add
  split
  · exact (placeFree_asString r).map_eq _
  · exact (placeFree_asString r).map_eq _
  · exact (placeFree_asString.asOption r).map_eq _
  · rw [r.unplaced_unplaced]
    exact r.asValue_alike.map_eq _

theorem read_alike : ∀ (entries : Entries) (d : Draft),
    Alike (fun x y => x.1 = y.1) (d.read entries) (d.read entries.unplaced)
  | .close _, _ => .ok rfl
  | .broken _, _ => .error _ _
  | .keyOnly key _, d => by
    rw [Entries.unplaced, Draft.read, Draft.read]
    split <;> exact .error _ _
  | .entry key value _ tail, d => by
    rw [Entries.unplaced, Draft.read, Draft.read]
    split
    · exact .error _ _
    · obtain ⟨d', _, hx, hy, rfl⟩ | ⟨r, r', hx, hy⟩ :=
        ((placeFree_add d key.name value).within (.key key.name)).ok_or_error
      · rw [hx, hy]
        exact read_alike tail d'
      · rw [hx, hy]
        exact .error r r'

theorem finish_alike (d : Draft) (stop stop' : Mark) : Alike Eq (d.finish stop) (d.finish stop') := by
  unfold Draft.finish
  split
  · exact .error _ _
  · exact .error _ _
  · cases annotationsOf d.rest with
    | ok annotations => exact .ok rfl
    | error r => exact .error _ _

/-- **Places make no difference to a field.** -/
theorem placeFree_decode : PlaceFree decode := by
  intro r
  cases r with
  | scalar v start stop =>
    exact .mismatch (.scalar v start stop) (.scalar v none none) "struct RawField"
  | array start items =>
    exact .mismatch (.array start items) (.array none items.unplaced) "struct RawField"
  | object start entries =>
    rw [Reading.unplaced, decode, decode]
    obtain ⟨⟨d, stop⟩, ⟨_, stop'⟩, hx, hy, rfl⟩ | ⟨r, r', hx, hy⟩ := (read_alike entries {}).ok_or_error
    · rw [hx, hy]
      exact finish_alike d stop stop'
    · rw [hx, hy]
      exact .error r r'
  | broken lead start fault => exact .refl _

end FieldDefinition

namespace TypeDefinition

theorem placeFree_set (d : TypeDefinition) (name : String) : PlaceFree (d.set name) := by
  intro r
  unfold set
  split
  · exact (placeFree_asString.asOption r).map_eq _
  · exact (placeFree_asString.asOption r).map_eq _
  · exact (FieldDefinition.placeFree_decode.asList r).map_eq _
  · exact .refl _

/-- **Places make no difference to a type.** -/
theorem placeFree_decode : PlaceFree decode := fun r =>
  (r.record_alike placeFree_set ({} : TypeDefinition)).map fun _ _ h => h.1

end TypeDefinition

namespace Definitions

/-- **Places make no difference to the definitions of a document.** -/
theorem placeFree_decode : PlaceFree decode := by
  intro r
  have hset : ∀ (a : Definitions) name, PlaceFree (form.set a name) :=
    fun _ _ => TypeDefinition.placeFree_decode.asMap
  unfold decode
  obtain ⟨w, w', hx, hy, hvalue, hseen⟩ | ⟨refusal, refusal', hx, hy⟩ :=
    (r.record_alike hset []).ok_or_error
  · rw [hx, hy]
    dsimp only
    rw [← hvalue, ← hseen]
    split
    · split <;> split <;> exact .error _ _
    · exact .refl _
  · rw [hx, hy]
    exact .error refusal refusal'

end Definitions

/-! ## Catalogs -/

namespace Catalog

/-- Results of loading a catalog: the same catalog, or errors that are the same unless both say that
the document is malformed. -/
inductive LoadsAlike : Except CatalogError Catalog → Except CatalogError Catalog → Prop
  | ok (c : Catalog) : LoadsAlike (.ok c) (.ok c)
  | malformed (r r' : Refusal) : LoadsAlike (.error (.malformed r)) (.error (.malformed r'))
  | error (e : CatalogError) : LoadsAlike (.error e) (.error e)

theorem LoadsAlike.of_decoded {x y : Decoded Definitions} (h : Alike Eq x y) :
    LoadsAlike (ofDecoded x) (ofDecoded y) := by
  cases h with
  | error r r' => exact .malformed r r'
  | @ok defs _ h =>
    obtain rfl := h
    rw [ofDecoded]
    cases build defs with
    | ok c => exact .ok c
    | error e => exact .error e

/-- **Texts and values are loaded alike.**  A text that is one JSON document and repeats no key makes
the same catalog as the value that it denotes, or both are refused for the same reason. -/
theorem ofText_ofValue {text : String} {v : Value} (hv : Value.ofText text = .ok v)
    (hd : RepeatsNoKey text) : LoadsAlike (ofText text) (ofValue v) := by
  have hreading : Reading.ofValue v = (Reading.ofText text).1.unplaced :=
    Reading.ofValue_of_asValue hd.distinct (decodeWhole_ok hv)
  rw [ofText, ofValue, Definitions.ofText, Definitions.ofValue, hreading]
  exact .of_decoded (Definitions.placeFree_decode _)

/-- A text with a type in an array and another in an object, and a field with an empty object behind
the name of a kind and with a key that nobody knows. -/
def mixedText : String :=
  "\x7b\"types\":\x7b\"post\":[\"Post\",null,[\x7b\"name\":\"by\",\"type\":\"user\"," ++
    "\"schema_type\":\x7b\"any\":\x7b\x7d\x7d,\"minimum\":1e2,\"enum\":[\x7b\"a\":null\x7d]," ++
    "\"extra\":true\x7d]],\"user\":\x7b\x7d\x7d\x7d"

/-- It is accepted both ways, and makes the same catalog. -/
theorem ofText_ofValue_mixed :
    ∃ v, Value.ofText mixedText = .ok v ∧ RepeatsNoKey mixedText ∧
      (ofText mixedText).isOk = true ∧ LoadsAlike (ofText mixedText) (ofValue v) := by
  have hdistinct : RepeatsNoKey mixedText := ⟨by decide +kernel⟩
  have hok : (ofText mixedText).isOk = true := by decide +kernel
  have hread : (Value.ofText mixedText).isOk = true := by decide +kernel
  cases hv : Value.ofText mixedText with
  | error r =>
    rw [hv] at hread
    cases hread
  | ok v => exact ⟨v, rfl, hdistinct, hok, ofText_ofValue hv hdistinct⟩

end Catalog

end SchemaTree
