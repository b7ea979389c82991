import SchemaTree.Proofs.Compiler.Annotations
import SchemaTree.Proofs.Number.Nearest

/-!
# What becomes of integer bounds

A bound is written as an integer of up to 64 bits, kept as a double, and written into documents as
an integer again if that is possible.  So a bound that no double is equal to is changed on the way.

* `FieldDefinition.bound_of_mem`: a bound is stored as the double for the integer that is written.
* `Compiler.emitted_bound`: **a bound is emitted as the nearest double**, which is written as an
  integer below `2^63` and as a double above.  An integer that is a double is emitted as it is.
* `Compiler.not_emitted_integer`: not every integer is.
-/

namespace SchemaTree

open Json

section

variable {p field : Reading} {n : Int} {key : String} {f : FieldDefinition}

theorem Json.Reading.asOption_asDouble (h : p.asValue = .ok (.number (.integer n))) :
    p.asOption Reading.asDouble = .ok (some (.ofInt n)) := by
  cases p with
  | scalar s start stop =>
    cases s with
    | number m =>
      cases h
      rfl
    | _ => cases h
  | array start items =>
    obtain ⟨vs, -, hv⟩ := map_ok_iff.mp h
    cases hv
  | object start entries =>
    obtain ⟨ms, -, hv⟩ := map_ok_iff.mp h
    cases hv
  | broken lead start fault => cases h

/-- **A bound is stored as the double for the integer that is written.** -/
theorem FieldDefinition.bound_of_mem (hkey : key ∈ Annotations.boundKeys)
    (hp : (key, p) ∈ field.members) (hv : p.asValue = .ok (.number (.integer n)))
    (h : decode field = .ok f) : f.annotations.bound? key = some (.ofInt n) := by
  have hname : key ∈ Annotations.names := by
    have hall : ∀ k ∈ Annotations.boundKeys, k ∈ Annotations.names := by decide
    exact hall key hkey
  refine annotations_of_mem (P := fun a => a.bound? key = some (.ofInt n)) hname ?hset ?hkeep hp h
  case hset =>
    intro a a' ha
    have hb := Annotations.set_bound hkey ha
    rw [Reading.asOption_asDouble (Reading.asValue_unplaced hv)] at hb
    exact (Except.ok.inj hb).symm
  case hkeep =>
    intro a name q a' hne ha hbound
    rw [Annotations.bound_keeps hkey hne ha, hbound]

theorem Descriptor.get?_statements_of_bound (d : Descriptor)
    (hkey : key ∈ Annotations.boundKeys) :
    (Members.get? d.statements key).join = (d.annotations.bound? key).map .ofBound := by
  simp only [Annotations.boundKeys, List.mem_cons, List.not_mem_nil, or_false] at hkey
  rcases hkey with rfl | rfl <;> rfl

end

namespace Compiler

variable {doc : Document} {catalog : Catalog} {aliasName : String} {i : Nat} {field p : Reading}
  {key : String} {n : Int}

/-- **An integer bound is emitted as the nearest double.**  A field with an integer bound that a
catalog document writes is stored where it is written.  Let `x` be the double nearest to the
bound.  Unless the field is ignored, all documents show the integer `x` as its bound if `x` is below
`2^63`, and the double `x` if it is above.  A bound that is a double is `x` itself, and so are all
of up to 53 bits. -/
theorem emitted_bound (hc : doc.catalog = .ok catalog)
    (hfield : doc.field? aliasName i = some field) (hkey : key ∈ Annotations.boundKeys)
    (hp : (key, p) ∈ field.members) (hv : p.asValue = .ok (.number (.integer n)))
    (hmin : -2 ^ 63 ≤ n) (hmax : n < 2 ^ 64) (base : String) (options : CompilerOptions) :
    ∃ d, catalog.Stored aliasName i field d ∧ ∃ (x : Int) (b : Double), b.IsNearest n x ∧
      (∀ e : Double, e.Canonical → e.toInt? = some n → x = n) ∧ (n.natAbs ≤ 2 ^ 53 → x = n) ∧
      (d.annotations.ignore = false →
        (x < 2 ^ 63 → (ofCatalog catalog base options).ShowsMember aliasName d key
          (some (.number (.integer x)))) ∧
        (2 ^ 63 < x → (ofCatalog catalog base options).ShowsMember aliasName d key
          (some (.number (.double b))))) := by
  obtain ⟨d, f, hd, hf, hannotations⟩ := Document.exists_stored hc hfield
  obtain ⟨x, hx⟩ : ∃ x, Double.IsNearest n (.ofInt n) x := Double.exists_nearest (by omega)
  refine ⟨d, hd, x, .ofInt n, hx, fun e he hn => hx.eq_of_double he hn, ?_, ?_⟩
  · intro hsmall
    obtain ⟨e, he, hn⟩ := Double.exists_double hsmall
    exact hx.eq_of_double he hn
  · intro hi
    have hother : key ∉ Descriptor.bodyKeys := by
      have hnone : ∀ k ∈ Annotations.boundKeys, k ∉ Descriptor.bodyKeys := by decide
      exact hnone key hkey
    have hshows := showsMember_stated (Document.accepted hc) hd hi base options hother
    rw [d.get?_statements_of_bound hkey, hannotations,
      FieldDefinition.bound_of_mem hkey hp hv hf, Option.map_some] at hshows
    obtain ⟨hbelow, habove⟩ := Value.ofBound_of_isNearest hx hmin
    exact ⟨fun hlt => hbelow hlt ▸ hshows, fun hlt => habove hlt ▸ hshows⟩

/-- A document with a minimum is accepted, and what is compiled from it shows a minimum. -/
def ShowsMinimum (n : Int) (shown : Value) : Prop :=
  ∃ catalog s field p,
    (annotated "minimum" (.number (.integer n))).catalog = .ok catalog ∧
    (annotated "minimum" (.number (.integer n))).field? "a" 0 = some field ∧
    ("minimum", p) ∈ field.members ∧ p.asValue = .ok (.number (.integer n)) ∧
    ((ofCatalog catalog defaultBase {}).compile "a").1 = .ok s ∧
    s.toValue.ShowsAt ["properties", "n"] "minimum" (some shown)

theorem ShowsMinimum.unique {n : Int} {v v' : Value} (h : ShowsMinimum n v)
    (h' : ShowsMinimum n v') : v = v' := by
  obtain ⟨catalog, s, -, -, hc, -, -, -, hs, ms, hfind, hget⟩ := h
  obtain ⟨catalog', s', -, -, hc', -, -, -, hs', ms', hfind', hget'⟩ := h'
  obtain rfl : catalog = catalog' := Except.ok.inj (hc.symm.trans hc')
  obtain rfl : s = s' := Except.ok.inj (hs.symm.trans hs')
  obtain rfl : ms = ms' := Value.object.inj (Option.some.inj (hfind.symm.trans hfind'))
  exact Option.some.inj (hget.symm.trans hget')

theorem showsMinimum_ofInt (n : Int) : ShowsMinimum n (.ofBound (.ofInt n)) :=
  ⟨_, _, _, _, rfl, rfl, mem_annotatedField "minimum" (.number (.integer n)), rfl, rfl, _, rfl, rfl⟩

/-- The least bound of 64 bits is emitted as it is.  The integer behind `2^53` is rounded, and so is
the greatest bound of 64 bits, which is emitted as a double. -/
theorem emitted_bound_least :
    "minimum" ∈ Annotations.boundKeys ∧
    ShowsMinimum (-2 ^ 63) (.number (.integer (-2 ^ 63))) ∧
    (∃ b : Double, b.IsNearest (2 ^ 53 + 1) (2 ^ 53) ∧
      ShowsMinimum (2 ^ 53 + 1) (.number (.integer (2 ^ 53)))) ∧
    ∃ b : Double, b.IsNearest (2 ^ 64 - 1) (2 ^ 64) ∧
      ShowsMinimum (2 ^ 64 - 1) (.number (.double b)) := by
  have hkey : "minimum" ∈ Annotations.boundKeys := by decide
  have hshown : ∀ n : Int, -2 ^ 63 ≤ n → n < 2 ^ 64 → ∃ (x : Int) (b : Double), b.IsNearest n x ∧
      (x < 2 ^ 63 → ShowsMinimum n (.number (.integer x))) ∧
      (2 ^ 63 < x → ShowsMinimum n (.number (.double b))) := by
    intro n hmin hmax
    have hmem := mem_annotatedField "minimum" (.number (.integer n))
    have hfield : (annotated "minimum" (.number (.integer n))).field? "a" 0 =
        some (annotatedField "minimum" (.number (.integer n))) := rfl
    obtain ⟨d, hd, x, b, hx, -, -, hshows⟩ :=
      emitted_bound rfl hfield hkey hmem rfl hmin hmax defaultBase {}
    refine ⟨x, b, hx, fun hlt => ?_, fun hlt => ?_⟩
    · exact ⟨_, _, _, _, rfl, hfield, hmem, rfl, rfl,
        showsAt_of_showsMember ⟨d, hd, fun hi => (hshows hi).1 hlt⟩ rfl rfl rfl rfl⟩
    · exact ⟨_, _, _, _, rfl, hfield, hmem, rfl, rfl,
        showsAt_of_showsMember ⟨d, hd, fun hi => (hshows hi).2 hlt⟩ rfl rfl rfl rfl⟩
  have hcanonical : ∀ negative, ∀ q ∈ [(1 : Int), 11, 12],
      (Double.finite negative Double.leastFull q).Canonical := by
    intro negative q hq
    have hrange : ∀ q ∈ [(1 : Int), 11, 12], Double.minExponent ≤ q ∧ q ≤ Double.maxExponent := by
      decide
    exact ⟨by decide, (hrange q hq).1, (hrange q hq).2, Or.inl (le_refl _)⟩
  refine ⟨hkey, ?least, ?rounded, ?double⟩
  case least =>
    obtain ⟨x, b, hx, hbelow, -⟩ := hshown (-2 ^ 63) (le_refl _) (by decide)
    obtain rfl : x = -2 ^ 63 := hx.eq_of_double (hcanonical true 11 (by decide)) (by decide)
    exact hbelow (by decide)
  case rounded =>
    obtain ⟨x, b, hx, hbelow, -⟩ := hshown (2 ^ 53 + 1) (by decide) (by decide)
    have hclose := hx.closest_integer (y := 2 ^ 53) (hcanonical false 1 (by decide)) (by decide)
    have hshows := hbelow (by omega)
    -- Both neighbours are equally close; the document tells which one it is.
    have hvalue := hshows.unique (showsMinimum_ofInt _)
    obtain rfl : x = 2 ^ 53 := by
      cases hvalue
      rfl
    exact ⟨b, hx, hshows⟩
  case double =>
    obtain ⟨x, b, hx, -, habove⟩ := hshown (2 ^ 64 - 1) (by decide) (by decide)
    have hclose := hx.closest_integer (y := 2 ^ 64) (hcanonical false 12 (by decide)) (by decide)
    have hshows := habove (by omega)
    have hvalue := hshows.unique (showsMinimum_ofInt _)
    obtain rfl : b = .finite false Double.leastFull 12 := by
      cases hvalue
      rfl
    obtain rfl : x = 2 ^ 64 := Option.some.inj (hx.integer.symm.trans (by decide))
    exact ⟨_, hx, hshows⟩

/-- **Not every integer bound is emitted as it is**: no double is equal to the one behind `2^53`. -/
theorem not_emitted_integer : ¬ ∀ (doc : Document) (catalog : Catalog) (aliasName : String)
    (i : Nat) (field p : Reading) (key : String) (n : Int) (base : String)
    (options : CompilerOptions),
    doc.catalog = .ok catalog → doc.field? aliasName i = some field →
    key ∈ Annotations.boundKeys → (key, p) ∈ field.members →
    p.asValue = .ok (.number (.integer n)) → -2 ^ 63 ≤ n → n < 2 ^ 64 →
    ∃ d, catalog.Stored aliasName i field d ∧ (d.annotations.ignore = false →
      (ofCatalog catalog base options).ShowsMember aliasName d key
        (some (.number (.integer n)))) := by
  intro hall
  have hmem := mem_annotatedField "minimum" (.number (.integer (2 ^ 53 + 1)))
  have hfield : (annotated "minimum" (.number (.integer (2 ^ 53 + 1)))).field? "a" 0 =
      some (annotatedField "minimum" (.number (.integer (2 ^ 53 + 1)))) := rfl
  have hstored := hall _ _ _ _ _ _ _ _ defaultBase {} rfl hfield (by decide) hmem rfl (by decide)
    (by decide)
  -- What stands there is the even neighbour, `2^53`.
  obtain ⟨ms, hfind, hget⟩ := showsAt_of_showsMember hstored rfl rfl rfl rfl
  cases hfind
  cases hget

end Compiler

end SchemaTree
