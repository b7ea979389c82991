import Mathlib.Data.List.Infix
import SchemaTree.Proofs.Check.Sites
import SchemaTree.Proofs.Json.Evaluation

/-!
# Checks are exact

A check of a document finds nothing exactly if the document is valid, and else it finds each broken
rule once, at a pointer that leads back to the value it was found at.

* `Valid`: the rules of documents, said of the root and of all sites that can be reached.
* `Site.resolve_pointer`: **the pointer of a site leads to its value.**
* `nodup_pointers`: **no two sites have the same pointer.**
* `document_exact`: what a check reports, and where.
-/

namespace SchemaTree.Check

open Json

/-- A valid document: its root names a meta-schema and has the type `object`, and at all sites there
are nodes that keep all rules. -/
structure Valid (rejection : String → Option String) (doc : Value) : Prop where
  root : ∃ node, doc = .object node ∧
    (∃ s, Members.get? node "$schema" = some (.string s)) ∧
      Members.get? node "type" = some (.string "object")
  sites : ∀ s, Reached doc s →
    ∃ node, s.value = .object node ∧ ∀ r : Rule, r.Kept rejection s.role node

variable {rejection : String → Option String} {doc : Value} {s : Site}

theorem Site.violations_eq_nil : s.violations rejection = [] ↔
    ∃ node, s.value = .object node ∧ ∀ r : Rule, r.Kept rejection s.role node := by
  obtain ⟨pointer, role, v⟩ := s
  cases v with
  | object node => simp [violations, complaints, Rule.mem_all]
  | _ => simp [violations]

/-- **A check finds nothing exactly in valid documents.** -/
theorem document_eq_nil : document rejection doc = [] ↔ Valid rejection doc := by
  rw [document_eq, List.flatMap_eq_nil_iff]
  constructor
  · intro h
    have hsites : ∀ s, Reached doc s →
        ∃ node, s.value = .object node ∧ ∀ r : Rule, r.Kept rejection s.role node :=
      fun s hs => Site.violations_eq_nil.mp (h s (mem_sites.mpr hs))
    obtain ⟨node, hnode, hrules⟩ := hsites _ .root
    exact ⟨⟨node, hnode, hrules .metaSchema rfl, hrules .rootType rfl⟩, hsites⟩
  · intro h s hs
    exact Site.violations_eq_nil.mpr (h.sites s (mem_sites.mp hs))

theorem Site.pointer_of_mem_violations {v : Violation} (h : v ∈ s.violations rejection) :
    v.pointer = Pointer.text s.pointer := by
  unfold violations at h
  split at h
  · obtain ⟨message, -, rfl⟩ := List.mem_map.mp h
    rfl
  · rw [List.mem_singleton.mp h]

/-! ## Pointers -/

theorem Reached.foldlM_pointer (hdoc : doc.Distinct) (h : Reached doc s) :
    s.pointer.foldlM Pointer.step? doc = some s.value ∧ s.value.Distinct := by
  induction h with
  | root => exact ⟨rfl, hdoc⟩
  | @property pointer role node properties name v _ hproperties hv ih =>
    obtain ⟨hlead, hnode⟩ := ih
    have hdistinct : (Value.object properties).Distinct :=
      hnode.member (Members.mem_of_get? hproperties)
    refine ⟨?_, hdistinct.member hv⟩
    rw [List.foldlM_append, hlead]
    have hproperties' : Pointer.step? (.object node) "properties" = some (.object properties) :=
      hproperties
    have hv' : Pointer.step? (.object properties) name = some v := hdistinct.get? hv
    simp [hproperties', hv']
  | @items pointer role node v _ hv ih =>
    obtain ⟨hlead, hnode⟩ := ih
    refine ⟨?_, hnode.member (Members.mem_of_get? hv)⟩
    rw [List.foldlM_append, hlead]
    have hv' : Pointer.step? (.object node) "items" = some v := hv
    simp [hv']

/-- **The pointer of a site, written as a text, refers to its value.** -/
theorem Reached.resolve_pointer (hdoc : doc.Distinct) (h : Reached doc s) :
    Pointer.resolve? doc (Pointer.text s.pointer) = some s.value := by
  rw [Pointer.resolve?_text]
  exact (h.foldlM_pointer hdoc).1

theorem Site.pointer_inner {s' : Site} (h : s' ∈ s.inner) :
    ∃ key keys, s'.pointer = s.pointer ++ key :: keys := by
  obtain ⟨node, -, ⟨properties, name, v, -, -, rfl⟩ | ⟨v, -, rfl⟩⟩ := mem_inner h
  · exact ⟨"properties", [name], rfl⟩
  · exact ⟨"items", [], rfl⟩

theorem Site.prefix_of_mem_all (s : Site) : ∀ s' ∈ s.all, s.pointer <+: s'.pointer := by
  refine Site.forall_all (P := fun s' => s.pointer <+: s'.pointer) (List.prefix_refl _) ?_
  intro s₁ s₂ h hs₂
  obtain ⟨key, keys, hpointer⟩ := pointer_inner hs₂
  exact h.trans (hpointer ▸ List.prefix_append _ _)

/-- Pointers of which no other pointer goes on from both. -/
def Apart (p q : List String) : Prop := ∀ x, p <+: x → ¬ q <+: x

theorem apart_append {pointer p q : List String} (h : Apart p q) :
    Apart (pointer ++ p) (pointer ++ q) := by
  rintro x ⟨t, rfl⟩ ⟨t', ht'⟩
  rw [List.append_assoc, List.append_assoc] at ht'
  exact h (p ++ t) ⟨t, rfl⟩ ⟨t', List.append_cancel_left ht'⟩

theorem apart_properties {name name' : String} (h : name ≠ name') :
    Apart ["properties", name] ["properties", name'] := by
  rintro x ⟨t, rfl⟩ ⟨t', ht'⟩
  simp at ht'
  exact h ht'.1.symm

theorem apart_items (name : String) : Apart ["properties", name] ["items"] := by
  rintro x ⟨t, rfl⟩ ⟨t', ht'⟩
  simp at ht'

theorem Site.pairwise_apart (hs : s.value.Distinct) :
    s.inner.Pairwise fun s₁ s₂ => Apart s₁.pointer s₂.pointer := by
  obtain ⟨pointer, role, v⟩ := s
  cases v with
  | object node =>
    rw [inner_object, List.pairwise_append]
    -- Properties are apart by their names, and from the items by their first key.
    refine ⟨?_, ?_, ?_⟩
    · rw [ofProperties]
      split
      · rename_i properties hproperties
        have hnodup := (hs.member (Members.mem_of_get? hproperties)).1
        rw [List.pairwise_map]
        rw [List.Nodup, List.pairwise_map] at hnodup
        exact hnodup.imp fun hne => apart_append (apart_properties hne)
      · exact List.Pairwise.nil
    · rw [ofItems]
      split
      · exact List.pairwise_singleton _ _
      · exact List.Pairwise.nil
    · intro s₁ hs₁ s₂ hs₂
      unfold ofProperties at hs₁
      unfold ofItems at hs₂
      split at hs₁
      · split at hs₂
        · obtain ⟨⟨name, v⟩, -, rfl⟩ := List.mem_map.mp hs₁
          obtain rfl := List.mem_singleton.mp hs₂
          exact apart_append (apart_items name)
        · exact absurd hs₂ List.not_mem_nil
      · exact absurd hs₁ List.not_mem_nil
  | _ => exact List.Pairwise.nil

theorem Site.distinct_inner {s' : Site} (hs : s.value.Distinct) (h : s' ∈ s.inner) :
    s'.value.Distinct := by
  obtain ⟨node, hnode, ⟨properties, name, v, hproperties, hv, rfl⟩ | ⟨v, hv, rfl⟩⟩ := mem_inner h
  · rw [hnode] at hs
    exact (hs.member (Members.mem_of_get? hproperties)).member hv
  · rw [hnode] at hs
    exact hs.member (Members.mem_of_get? hv)

/-- **No two sites inside a site have the same pointer.** -/
theorem Site.nodup_pointers (hs : s.value.Distinct) : (s.all.map Site.pointer).Nodup := by
  induction s using inner_induction with
  | h s ih =>
    rw [all_eq, List.map_cons, List.map_flatMap, List.nodup_cons, List.nodup_flatMap]
    refine ⟨?_, fun s' hs' => ih s' hs' (distinct_inner hs hs'), ?_⟩
    · intro h
      obtain ⟨s', hs', h⟩ := List.mem_flatMap.mp h
      obtain ⟨s'', hs'', hpointer⟩ := List.mem_map.mp h
      obtain ⟨key, keys, hlonger⟩ := pointer_inner hs'
      have hprefix := (s'.prefix_of_mem_all s'' hs'').length_le
      rw [hpointer, hlonger, List.length_append, List.length_cons] at hprefix
      omega
    · refine (pairwise_apart hs).imp fun happart => List.disjoint_left.mpr fun x h₁ h₂ => ?_
      obtain ⟨x₁, hx₁, rfl⟩ := List.mem_map.mp h₁
      obtain ⟨x₂, hx₂, heq⟩ := List.mem_map.mp h₂
      exact happart _ (prefix_of_mem_all _ x₁ hx₁) (heq ▸ prefix_of_mem_all _ x₂ hx₂)

/-- **No two sites of a document have the same pointer**, as a text. -/
theorem nodup_pointers (hdoc : doc.Distinct) :
    ((sites doc).map fun s => Pointer.text s.pointer).Nodup := by
  have hinjective : Function.Injective Pointer.text :=
    Function.LeftInverse.injective (g := Pointer.parse) Pointer.parse_text
  have hnodup := (Site.nodup_pointers (s := ⟨[], .root, doc⟩) hdoc).map hinjective
  rwa [List.map_map] at hnodup

/-! ## The exact check -/

/-- **A check is exact and its pointers are right.**  It finds nothing exactly in valid documents.
Otherwise it reports the broken rules of all nodes that can be reached, each node once, before those
inside it.  The pointer of a site refers to its value and to that of no other site, whatever
characters the names of properties have. -/
theorem document_exact (rejection : String → Option String) (doc : Value) :
    (document rejection doc = [] ↔ Valid rejection doc) ∧
    document rejection doc = (sites doc).flatMap (Site.violations rejection) ∧
    (∀ s, s ∈ sites doc ↔ Reached doc s) ∧
    (doc.Distinct → ((sites doc).map fun s => Pointer.text s.pointer).Nodup ∧
      ∀ s, Reached doc s → Pointer.resolve? doc (Pointer.text s.pointer) = some s.value ∧
        ∀ v ∈ s.violations rejection, v.pointer = Pointer.text s.pointer) :=
  ⟨document_eq_nil, document_eq rejection doc, fun _ => mem_sites, fun hdoc =>
    ⟨nodup_pointers hdoc, fun _ hs =>
      ⟨hs.resolve_pointer hdoc, fun _ hv => Site.pointer_of_mem_violations hv⟩⟩⟩

/-- A document whose properties have names that are hard to point to. -/
def awkwardDocument : Value :=
  .object [("$schema", .string "draft"), ("type", .string "object"), ("properties", .object [
    ("a/b", .null), ("~", .null), ("~0", .null), ("~1", .null), ("/", .null),
    ("", .object [("type", .string "array"), ("items", .bool true)])])]

/-- A text that denotes it, in which the root has two types: the second one counts. -/
def awkwardText : String :=
  "\x7b\"$schema\":\"draft\",\"type\":\"string\",\"properties\":\x7b\"a/b\":null,\"~\":null," ++
    "\"~0\":null,\"~1\":null,\"/\":null,\"\":\x7b\"type\":\"array\",\"items\":true\x7d\x7d," ++
    "\"type\":\"object\"\x7d"

/-- All of its sites are told apart, since it was read from a text, and each is found again. -/
theorem document_exact_awkward :
    Value.ofText awkwardText = .ok awkwardDocument ∧ Value.Distinct awkwardDocument ∧
    (document (fun _ => none) awkwardDocument).map (·.pointer) =
      ["/properties/a~1b", "/properties/~0", "/properties/~00", "/properties/~01",
        "/properties/~1", "/properties//items"] ∧
    ¬ Valid (fun _ => none) awkwardDocument ∧
    ((sites awkwardDocument).map fun s => Pointer.text s.pointer).Nodup ∧
    Pointer.resolve? awkwardDocument "/properties//items" = some (.bool true) := by
  have hread : Value.ofText awkwardText = .ok awkwardDocument :=
    toOption_eq_some_iff.mp (by decide +kernel)
  have hdistinct : Value.Distinct awkwardDocument := Value.distinct_of_ofText hread
  have hpointers : (document (fun _ => none) awkwardDocument).map (·.pointer) =
      ["/properties/a~1b", "/properties/~0", "/properties/~00", "/properties/~01",
        "/properties/~1", "/properties//items"] := by
    decide +kernel
  have hlist : Reached awkwardDocument ⟨["properties", ""], .property,
      .object [("type", .string "array"), ("items", .bool true)]⟩ :=
    Reached.root.property rfl (by simp)
  have hitems : Reached awkwardDocument ⟨["properties", "", "items"], .items, .bool true⟩ :=
    hlist.items rfl
  obtain ⟨hvalid, -, -, hpointer⟩ := document_exact (fun _ => none) awkwardDocument
  obtain ⟨hnodup, hresolve⟩ := hpointer hdistinct
  refine ⟨hread, hdistinct, hpointers, fun h => ?_, hnodup, (hresolve _ hitems).1⟩
  rw [hvalid.mpr h] at hpointers
  exact absurd hpointers (by simp)

end SchemaTree.Check
