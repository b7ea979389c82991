import SchemaTree.Proofs.Catalog.Fields
import SchemaTree.Proofs.Catalog.Lossless
import SchemaTree.Proofs.Json.Regular

/-!
# Bounds of a catalog

A catalog comes from JSON, in which all numbers are finite, so the bounds that it declares are
finite too: each can be written as a number again.

* `FieldDefinition.finiteBounds_of_decode`: annotations are decoded from entries that were kept
  aside, and their bounds are finite.
* `Catalog.FromJson`: the ways a catalog comes from JSON.
* `Catalog.FromJson.finiteBounds`: **all bounds of a catalog are finite.**
-/

namespace SchemaTree

open Json

/-- Annotations whose bounds are finite. -/
structure Annotations.FiniteBounds (a : Annotations) : Prop where
  minimum : ∀ d, a.minimum = some d → d.isFinite = true
  maximum : ∀ d, a.maximum = some d → d.isFinite = true

/-- A field definition with finite bounds throughout. -/
def TypeDefinition.FiniteBounds (d : TypeDefinition) : Prop :=
  ∀ f ∈ d.fields, f.annotations.FiniteBounds

/-! ## Decoding -/

theorem Json.Reading.forall_of_asOption {α : Type} {decode : Reading → Decoded α} {r : Reading}
    {P : α → Prop} {x : Option α} (hdecode : ∀ a, decode r = .ok a → P a)
    (h : r.asOption decode = .ok x) : ∀ a, x = some a → P a := by
  rintro a rfl
  rw [Reading.asOption.eq_def] at h
  split at h
  · cases h
  · cases h
  · obtain ⟨b, hb, heq⟩ := map_ok_iff.mp h
    cases heq
    exact hdecode _ hb

theorem Json.Reading.forall_of_asList {α : Type} {decode : Reading → Decoded α} {r : Reading}
    {P : α → Prop} {as : List α} (hdecode : ∀ p ∈ r.parts, ∀ a, decode p = .ok a → P a)
    (h : r.asList decode = .ok as) : ∀ a ∈ as, P a := by
  intro a ha
  obtain ⟨p, hp, hpa⟩ := exists_of_forall₂ (Reading.asList_ok h) a ha
  exact hdecode p hp a hpa

theorem Annotations.FiniteBounds.set {decodeKind : Reading → Decoded Kind} {a a' : Annotations}
    {name : String} {r : Reading} (ha : a.FiniteBounds) (hr : r.Regular)
    (h : a.set decodeKind name r = .ok a') : a'.FiniteBounds := by
  have hbound : ∀ key ∈ boundKeys, (∀ d, a.bound? key = some d → d.isFinite = true) →
      ∀ d, a'.bound? key = some d → d.isFinite = true := by
    intro key hkey hbefore
    by_cases hname : name = key
    · subst hname
      exact Reading.forall_of_asOption (fun _ hd => hr.asDouble hd) (set_bound hkey h)
    · rw [bound_keeps hkey hname h]
      exact hbefore
  exact ⟨hbound "minimum" (by decide) ha.minimum, hbound "maximum" (by decide) ha.maximum⟩

namespace FieldDefinition

theorem finiteBounds_annotationsOf {rest : List (String × Reading)} {a : Annotations}
    (hrest : ∀ w ∈ rest, w.2.Regular) (h : annotationsOf rest = .ok a) : a.FiniteBounds := by
  unfold annotationsOf at h
  dsimp only at h
  split at h
  · rename_i written hwritten
    cases h
    have hinitial : Annotations.FiniteBounds {} := by
      constructor <;> exact fun d hd => nomatch hd
    refine Entries.record_invariant (Q := fun a _ => a.FiniteBounds) _ ?_ hwritten hinitial
    intro a _ name p a' _ hp hset ha
    rw [toList_foldr] at hp
    obtain ⟨w, hw, rfl⟩ := List.mem_map.mp hp
    exact ha.set (hrest w (List.mem_of_mem_filter hw)) hset
  · cases h

/-- **A field is decoded with finite bounds.** -/
theorem finiteBounds_of_decode {r : Reading} {f : FieldDefinition} (hr : r.Regular)
    (h : decode r = .ok f) : f.annotations.FiniteBounds := by
  obtain ⟨d, stop, ⟨start, es, rfl, hread⟩, -, hannotations⟩ := decode_ok h
  refine finiteBounds_annotationsOf (fun w hw => ?_) hannotations
  rw [Draft.rest_read hread, List.nil_append] at hw
  obtain ⟨e, he, rfl⟩ := List.mem_map.mp hw
  have hregular : e.2.Regular :=
    hr.of_mem_members (r := .object start es) (List.mem_of_mem_filter he)
  exact hregular.unplaced

end FieldDefinition

/-- **A type is decoded with finite bounds.** -/
theorem TypeDefinition.finiteBounds_of_decode {r : Reading} {d : TypeDefinition} (hr : r.Regular)
    (h : decode r = .ok d) : d.FiniteBounds := by
  obtain ⟨w, hw, rfl⟩ := map_ok_iff.mp h
  refine Reading.record_induction (P := TypeDefinition.FiniteBounds) ?_ hw
    fun _ hf => absurd hf List.not_mem_nil
  intro d name p d' hp hset hd
  have hpart : p.Regular := hr.of_mem_parts hp
  dsimp only [form] at hset
  unfold TypeDefinition.set at hset
  split at hset
  · obtain ⟨x, -, rfl⟩ := map_ok_iff.mp hset
    exact hd
  · obtain ⟨x, -, rfl⟩ := map_ok_iff.mp hset
    exact hd
  · obtain ⟨fs, hfs, rfl⟩ := map_ok_iff.mp hset
    exact Reading.forall_of_asList
      (fun q hq f hf => FieldDefinition.finiteBounds_of_decode (hpart.of_mem_parts hq) hf) hfs
  · cases hset
    exact hd

/-! ## Documents and files -/

namespace Definitions

variable {ms : Definitions}

theorem finiteBounds_of_typesIn {r types : Reading} (hr : r.Regular)
    (ht : typesIn r = some types)
    (hms : List.Forall₂ (Decodes TypeDefinition.decode) types.members ms) :
    ∀ m ∈ Members.ofList ms, m.2.FiniteBounds := by
  have htypes : types.Regular := by
    unfold typesIn at ht
    split at ht
    · rename_i start es
      have hmem := Members.mem_of_get? ht
      exact hr.of_mem_members (r := .object start es) hmem
    · cases ht
      exact hr.1
    · cases ht
  intro m hm
  obtain ⟨w, hw, -, hdecode⟩ := exists_of_forall₂ hms m (Members.mem_of_mem_ofList hm)
  exact TypeDefinition.finiteBounds_of_decode (htypes.of_mem_members hw) hdecode

theorem Writes.finiteBounds {text : String} (h : Writes text ms) :
    ∀ m ∈ Members.ofList ms, m.2.FiniteBounds := by
  obtain ⟨types, ht, hms⟩ := h
  exact finiteBounds_of_typesIn (Reading.regular_ofText text) ht hms

end Definitions

namespace Catalog

/-- A catalog that comes from JSON: from a text, from files, or from a value in memory, which holds
no number that JSON has not. -/
inductive FromJson (c : Catalog) : Prop
  | ofText {text : String} (h : ofText text = .ok c)
  | ofValue {v : Value} (hv : v.Regular) (h : ofValue v = .ok c)
  | ofFiles {files : List SourceFile} (h : (ofFiles files).1 = .ok c)

variable {c : Catalog}

theorem FromJson.accepted (h : c.FromJson) : c.Accepted := by
  cases h with
  | ofText h => exact Accepted.of_ofText h
  | ofValue _ h => exact Accepted.of_ofValue h
  | ofFiles h => exact Accepted.of_ofFiles h

theorem FromJson.exists_definitions (h : c.FromJson) :
    ∃ defs, build defs = .ok c ∧ ∀ m ∈ defs, m.2.FiniteBounds := by
  cases h with
  | ofText h =>
    obtain ⟨ms, hms, hbuild⟩ := exists_writes_of_ofText h
    exact ⟨_, hbuild, hms.finiteBounds⟩
  | @ofValue v hv h =>
    rw [Catalog.ofValue] at h
    cases hdefs : Definitions.ofValue v with
    | error e =>
      rw [hdefs] at h
      cases h
    | ok defs =>
      rw [hdefs] at h
      obtain ⟨types, ht, hmap⟩ := Definitions.decode_ok hdefs
      obtain ⟨ms, hms, rfl⟩ := Reading.asMap_ok hmap
      exact ⟨_, h, Definitions.finiteBounds_of_typesIn (Reading.regular_ofValue hv) ht hms⟩
  | ofFiles h =>
    obtain ⟨mss, hmss, hbuild, -⟩ := exists_writes_of_ofFiles h
    refine ⟨_, hbuild, fun m hm => ?_⟩
    obtain ⟨defs, hdefs, hm⟩ := List.mem_flatten.mp hm
    obtain ⟨ms, hmem, rfl⟩ := List.mem_map.mp hdefs
    obtain ⟨file, -, path, text, -, hwrites⟩ := exists_of_forall₂ hmss ms hmem
    exact hwrites.finiteBounds m hm

/-- **All bounds that a catalog declares are finite.** -/
theorem FromJson.finiteBounds (h : c.FromJson) {t : TypeId} {ds : List Descriptor}
    (hds : c.source.fields t = .ok ds) : ∀ d ∈ ds, d.annotations.FiniteBounds := by
  obtain ⟨defs, hbuild, hdefs⟩ := h.exists_definitions
  obtain ⟨e, he, -, rfl⟩ := exists_of_fields hds
  obtain ⟨m, hm, hstores⟩ := exists_of_forall₂ (stores_of_build hbuild) e he
  intro d hd
  obtain ⟨f, hf, -, hannotations, -⟩ := exists_of_forall₂ hstores.fields d hd
  rw [hannotations]
  exact hdefs m hm f hf

end Catalog

end SchemaTree
