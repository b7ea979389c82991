import SchemaTree.Proofs.Catalog.Written

/-!
# Fields as a document writes them

A catalog can be loaded from a text or from a value in memory.  Either way a field is written as an
object somewhere in the document, with its annotations among its entries, and the catalog stores it
under the alias and at the index where it is written.

* `Document.field?`: the field that a document writes at an index for an alias.
* `FieldDefinition.annotations_of_mem`: **an annotation that is written is set**, whatever stands
  beside it.
* `Catalog.Stored`, `Document.exists_stored`: **a field is stored where it is written**, with the
  annotations that are decoded from it.
-/

namespace SchemaTree

open Json

/-! ## Lists -/

theorem Json.Items.decode_ok {α : Type} {decode : Reading → Decoded α} :
    ∀ {is : Items} {index : Nat} {as : List α}, is.decode decode index = .ok as →
      List.Forall₂ (fun p a => decode p = .ok a) is.toList as
  | .close _, _, _, h => by
    rw [Items.decode] at h
    cases h
    exact List.Forall₂.nil
  | .broken fault, _, _, h => by
    rw [Items.decode] at h
    cases h
  | .item head tail, _, _, h => by
    rw [Items.decode] at h
    split at h
    · cases h
    · rename_i a ha
      obtain ⟨as, has, rfl⟩ := map_ok_iff.mp h
      exact List.Forall₂.cons (within_ok ha) (Items.decode_ok has)

theorem Json.Reading.asList_ok {α : Type} {decode : Reading → Decoded α} {r : Reading}
    {as : List α} (h : r.asList decode = .ok as) :
    List.Forall₂ (fun p a => decode p = .ok a) r.parts as := by
  rw [Reading.asList.eq_def] at h
  split at h
  · exact Items.decode_ok h
  · cases h
  · exact (Reading.mismatch_ok h).elim

/-! ## Annotations -/

namespace Annotations

/-- The keys of bounds. -/
def boundKeys : List String := ["minimum", "maximum"]

/-- The bound with a key. -/
def bound? (a : Annotations) (key : String) : Option Double :=
  if key = "minimum" then a.minimum else a.maximum

variable {decodeKind : Reading → Decoded Kind} {a a' : Annotations} {name key : String}
  {r : Reading}

theorem set_keeps (h : a.set decodeKind name r = .ok a') :
    (name ≠ "minimum" → a'.minimum = a.minimum) ∧
      (name ≠ "maximum" → a'.maximum = a.maximum) ∧
        (name ≠ "default" → a'.fallback = a.fallback) := by
  unfold set at h
  split at h
  case h_6 =>
    obtain ⟨d, -, rfl⟩ := map_ok_iff.mp h
    exact ⟨fun hne => absurd rfl hne, fun _ => rfl, fun _ => rfl⟩
  case h_7 =>
    obtain ⟨d, -, rfl⟩ := map_ok_iff.mp h
    exact ⟨fun _ => rfl, fun hne => absurd rfl hne, fun _ => rfl⟩
  case h_13 =>
    obtain ⟨v, -, rfl⟩ := map_ok_iff.mp h
    exact ⟨fun _ => rfl, fun _ => rfl, fun hne => absurd rfl hne⟩
  case h_14 =>
    cases h
    exact ⟨fun _ => rfl, fun _ => rfl, fun _ => rfl⟩
  all_goals
    obtain ⟨x, -, rfl⟩ := map_ok_iff.mp h
    exact ⟨fun _ => rfl, fun _ => rfl, fun _ => rfl⟩

theorem set_bound (hkey : key ∈ boundKeys) (h : a.set decodeKind key r = .ok a') :
    r.asOption Reading.asDouble = .ok (a'.bound? key) := by
  simp only [boundKeys, List.mem_cons, List.not_mem_nil, or_false] at hkey
  rcases hkey with rfl | rfl
  all_goals
    obtain ⟨b, hb, rfl⟩ := map_ok_iff.mp h
    exact hb

theorem bound_keeps (hkey : key ∈ boundKeys) (hname : name ≠ key)
    (h : a.set decodeKind name r = .ok a') : a'.bound? key = a.bound? key := by
  simp only [boundKeys, List.mem_cons, List.not_mem_nil, or_false] at hkey
  rcases hkey with rfl | rfl
  · exact (set_keeps h).1 hname
  · exact (set_keeps h).2.1 hname

end Annotations

namespace FieldDefinition

open Annotations (decodeKindAside)

/-- The members of a field that are no annotations. -/
def ownNames : List String := ["name", "type", "items"]

theorem Draft.rest_add {d d' : Draft} {key : String} {r : Reading} (h : d.add key r = .ok d') :
    d'.rest = d.rest ++ if key ∈ ownNames then [] else [(key, r.unplaced)] := by
  unfold Draft.add at h
  split at h
  case h_4 hname htype hitems =>
    obtain ⟨v, -, rfl⟩ := map_ok_iff.mp h
    have hown : key ∉ ownNames := by
      rw [ownNames, List.mem_cons, List.mem_cons, List.mem_singleton]
      exact fun h => h.elim hname fun h => h.elim htype hitems
    rw [if_neg hown]
  all_goals
    obtain ⟨x, -, rfl⟩ := map_ok_iff.mp h
    simp [ownNames]

/-- **The annotations of a field are kept aside as they are written**, in order. -/
theorem Draft.rest_read : ∀ {es : Entries} {d d' : Draft} {stop : Mark},
    d.read es = .ok (d', stop) → d'.rest = d.rest ++
      (es.toList.filter (·.1 ∉ ownNames)).map fun e => (e.1, e.2.unplaced)
  | .close _, _, _, _, h => by
    rw [Draft.read] at h
    cases h
    exact (List.append_nil _).symm
  | .broken fault, _, _, _, h => by
    rw [Draft.read] at h
    cases h
  | .keyOnly key fault, _, _, _, h => by
    rw [Draft.read] at h
    split at h <;> cases h
  | .entry key value _ tail, d, _, _, h => by
    rw [Draft.read] at h
    split at h
    · cases h
    · split at h
      · cases h
      · rename_i d₁ hadd
        rw [Draft.rest_read h, Draft.rest_add (within_ok hadd), List.append_assoc, Entries.toList]
        by_cases hkey : key.name ∈ ownNames <;> simp [hkey]

theorem Draft.name_read : ∀ {es : Entries} {d d' : Draft} {stop : Mark} {name : String},
    d.read es = .ok (d', stop) → d'.name = some name →
      d.name = some name ∨ ∃ q, ("name", q) ∈ es.toList ∧ q.asString = .ok name
  | .close _, _, _, _, _, h, hname => by
    rw [Draft.read] at h
    cases h
    exact Or.inl hname
  | .broken fault, _, _, _, _, h, _ => by
    rw [Draft.read] at h
    cases h
  | .keyOnly key fault, _, _, _, _, h, _ => by
    rw [Draft.read] at h
    split at h <;> cases h
  | .entry ⟨key, _, _⟩ value _ tail, d, _, _, name, h, hname => by
    rw [Draft.read] at h
    split at h
    · cases h
    · split at h
      · cases h
      · rename_i d₁ hadd
        rcases Draft.name_read h hname with hd₁ | ⟨q, hq, hs⟩
        · have hadd' : d.add key value = .ok d₁ := within_ok hadd
          unfold Draft.add at hadd'
          split at hadd'
          case h_1 =>
            obtain ⟨s, hs, rfl⟩ := map_ok_iff.mp hadd'
            cases hd₁
            exact Or.inr ⟨value, List.mem_cons_self, hs⟩
          all_goals
            obtain ⟨x, -, rfl⟩ := map_ok_iff.mp hadd'
            exact Or.inl hd₁
        · exact Or.inr ⟨q, List.mem_cons_of_mem _ hq, hs⟩

variable {key : String} {p r : Reading} {f : FieldDefinition} {P : Annotations → Prop}

theorem toList_foldr (rest : List (String × Reading)) :
    (rest.foldr (fun (key, r) => Entries.entry ⟨key, none, none⟩ r none)
      (Entries.close none)).toList = rest := by
  induction rest with
  | nil => rfl
  | cons w rest ih => rw [List.foldr_cons, Entries.toList, ih]

theorem annotationsOf_of_mem {rest : List (String × Reading)} {a : Annotations}
    (hkey : key ∈ Annotations.names)
    (hset : ∀ a a', Annotations.set decodeKindAside a key p = .ok a' → P a')
    (hkeep : ∀ a name q a', name ≠ key → Annotations.set decodeKindAside a name q = .ok a' →
      P a → P a')
    (hmem : (key, p) ∈ rest) (h : annotationsOf rest = .ok a) : P a := by
  unfold annotationsOf at h
  dsimp only at h
  split at h
  · rename_i written hwritten
    cases h
    have hknown : (key, p) ∈ rest.filter fun (key, _) => Annotations.names.contains key :=
      List.mem_filter.mpr ⟨hmem, List.contains_iff_mem.mpr hkey⟩
    rw [← toList_foldr (rest.filter _)] at hknown
    exact @Entries.record_of_mem _ (Annotations.form decodeKindAside) P key p hkey hset hkeep _ _ _ _
      hknown hwritten
  · cases h

theorem decode_ok (h : decode r = .ok f) : ∃ d stop,
    (∃ start es, r = .object start es ∧ Draft.read {} es = .ok (d, stop)) ∧
      d.name = some f.name ∧ annotationsOf d.rest = .ok f.annotations := by
  rw [decode.eq_def] at h
  split at h
  · rename_i start es
    split at h
    · rename_i d stop hread
      refine ⟨d, stop, ⟨start, es, rfl, hread⟩, ?_⟩
      unfold Draft.finish at h
      split at h
      · cases h
      · cases h
      · rename_i name type hname _
        obtain ⟨a, ha, rfl⟩ := map_ok_iff.mp h
        unfold placedAt at ha
        split at ha
        · rename_i a' hannotations
          cases ha
          exact ⟨hname, hannotations⟩
        · cases ha
    · cases h
  · cases h
  · exact (Reading.mismatch_ok h).elim

/-- **What setting an annotation makes true is true of a field in which the annotation is written**,
if setting the other ones keeps it. -/
theorem annotations_of_mem (hkey : key ∈ Annotations.names)
    (hset : ∀ a a', Annotations.set decodeKindAside a key p.unplaced = .ok a' → P a')
    (hkeep : ∀ a name q a', name ≠ key → Annotations.set decodeKindAside a name q = .ok a' →
      P a → P a')
    (hmem : (key, p) ∈ r.members) (h : decode r = .ok f) : P f.annotations := by
  obtain ⟨d, stop, ⟨start, es, rfl, hread⟩, -, hannotations⟩ := decode_ok h
  refine annotationsOf_of_mem hkey hset hkeep ?_ hannotations
  have hown : key ∉ ownNames := by
    have hnone : ∀ name ∈ ownNames, name ∉ Annotations.names := by decide
    exact fun hown => hnone key hown hkey
  rw [Draft.rest_read hread]
  refine List.mem_append_right _ (List.mem_map.mpr ⟨(key, p), ?_, rfl⟩)
  exact List.mem_filter.mpr ⟨hmem, decide_eq_true hown⟩

theorem exists_name (h : decode r = .ok f) :
    ∃ q, ("name", q) ∈ r.members ∧ q.asString = .ok f.name := by
  obtain ⟨d, stop, ⟨start, es, rfl, hread⟩, hname, -⟩ := decode_ok h
  exact (Draft.name_read hread hname).resolve_left (fun hnone => nomatch hnone)

end FieldDefinition

/-! ## Documents -/

/-- A document that a catalog is loaded from: a text, or a value in memory. -/
inductive Document where
  | text (text : String)
  | value (v : Value)

namespace Document

/-- What a decoder gets to see of a document. -/
def reading : Document → Reading
  | text s => (Reading.ofText s).1
  | value v => Reading.ofValue v

/-- The catalog in a document. -/
def catalog : Document → Except CatalogError Catalog
  | text s => Catalog.ofText s
  | value v => Catalog.ofValue v

/-- **The field that a document writes at an index for an alias.**  If the alias is repeated, its
last definition counts. -/
def field? (doc : Document) (aliasName : String) (i : Nat) : Option Reading :=
  (Definitions.typesIn doc.reading).bind fun types =>
    (Members.get? (Members.ofList types.members) aliasName).bind fun definition =>
      (Members.get? (definition.membersOf TypeDefinition.form.names) "fields").bind fun fields =>
        fields.parts[i]?

variable {doc : Document} {c : Catalog} {aliasName : String} {i : Nat} {field : Reading}

theorem exists_definitions (h : doc.catalog = .ok c) :
    ∃ defs, Definitions.decode doc.reading = .ok defs ∧ Catalog.build defs = .ok c := by
  have hdecoded : Catalog.ofDecoded (Definitions.decode doc.reading) = .ok c := by
    cases doc with
    | text s => exact h
    | value v => exact h
  cases hdefs : Definitions.decode doc.reading with
  | error r =>
    rw [hdefs] at hdecoded
    cases hdecoded
  | ok defs =>
    rw [hdefs] at hdecoded
    exact ⟨defs, rfl, hdecoded⟩

theorem accepted (h : doc.catalog = .ok c) : c.Accepted := by
  obtain ⟨defs, -, hbuild⟩ := exists_definitions h
  exact ⟨defs, hbuild⟩

end Document

/-! ## Where a field is stored -/

section

variable {α : Type} {decode : Reading → Decoded α} {written : List (String × Reading)}
  {decoded : List (String × α)} {k : String}

theorem Json.exists_of_get?_foldl_insert (h : List.Forall₂ (Decodes decode) written decoded)
    {ms : List (String × Reading)} {ms' : List (String × α)}
    (hms : ∀ r, Members.get? ms k = some r →
      ∃ a, Members.get? ms' k = some a ∧ decode r = .ok a) :
    ∀ r, Members.get? (written.foldl (fun ms (k, v) => Members.insert k v ms) ms) k = some r →
      ∃ a, Members.get? (decoded.foldl (fun ms (k, v) => Members.insert k v ms) ms') k = some a ∧
        decode r = .ok a := by
  induction h generalizing ms ms' with
  | nil => exact hms
  | @cons w m written decoded hwm _ ih =>
    obtain ⟨key, q⟩ := w
    obtain ⟨key', a⟩ := m
    obtain ⟨rfl, ha⟩ : key = key' ∧ decode q = .ok a := hwm
    refine ih fun r hr => ?_
    rw [Members.get?_insert] at hr ⊢
    by_cases hk : key = k
    · rw [if_pos hk] at hr ⊢
      cases hr
      exact ⟨a, rfl, ha⟩
    · rw [if_neg hk] at hr ⊢
      exact hms r hr

/-- **Of members with the same key the last one is decoded to the last one.** -/
theorem Json.exists_of_get?_ofList (h : List.Forall₂ (Decodes decode) written decoded)
    {r : Reading} (hr : Members.get? (Members.ofList written) k = some r) :
    ∃ a, Members.get? (Members.ofList decoded) k = some a ∧ decode r = .ok a := by
  refine exists_of_get?_foldl_insert h (fun r hnil => ?_) r hr
  rw [Members.get?_nil] at hnil
  cases hnil

end

theorem TypeDefinition.fields_of_mem {r fields : Reading} {d : TypeDefinition}
    (hmem : ("fields", fields) ∈ r.membersOf form.names) (h : decode r = .ok d) :
    fields.asList FieldDefinition.decode = .ok d.fields := by
  obtain ⟨w, hw, rfl⟩ := map_ok_iff.mp h
  refine @Reading.record_of_mem _ form
    (fun d => fields.asList FieldDefinition.decode = .ok d.fields) _ _ _ _ _ (by decide) (by decide)
    ?hset ?hkeep hmem hw
  case hset =>
    intro d d' hd
    obtain ⟨fs, hfs, rfl⟩ := map_ok_iff.mp hd
    exact hfs
  case hkeep =>
    intro d name q d' hname hd hfields
    have hset : d.set name q = .ok d' := hd
    unfold TypeDefinition.set at hset
    split at hset
    case h_3 => exact absurd rfl hname
    case h_4 =>
      cases hset
      exact hfields
    all_goals
      obtain ⟨x, -, rfl⟩ := map_ok_iff.mp hset
      exact hfields

/-- A field that is written is stored at an index of the type with an alias, under the name that it
is given. -/
structure Catalog.Stored (c : Catalog) (aliasName : String) (i : Nat) (field : Reading)
    (d : Descriptor) : Prop where
  stands : ∃ t ds, c.source.resolve aliasName = some t ∧ c.source.fields t = .ok ds ∧
    ds[i]? = some d
  named : ∃ q, ("name", q) ∈ field.members ∧ q.asString = .ok d.name

/-- **A field that a document writes is stored where it is written**, with the annotations that are
decoded from it. -/
theorem Document.exists_stored {doc : Document} {c : Catalog} {aliasName : String} {i : Nat}
    {field : Reading} (hc : doc.catalog = .ok c) (hfield : doc.field? aliasName i = some field) :
    ∃ d f, c.Stored aliasName i field d ∧ FieldDefinition.decode field = .ok f ∧
      d.annotations = f.annotations := by
  obtain ⟨defs, hdefs, hbuild⟩ := exists_definitions hc
  obtain ⟨types, htypes, hmap⟩ := Definitions.decode_ok hdefs
  obtain ⟨pairs, hpairs, rfl⟩ := Reading.asMap_ok hmap
  rw [field?, htypes, Option.bind_some] at hfield
  obtain ⟨definition, hdefinition, hfield⟩ := Option.bind_eq_some_iff.mp hfield
  obtain ⟨fields, hfields, hfield⟩ := Option.bind_eq_some_iff.mp hfield
  obtain ⟨x, hx, hdecoded⟩ := exists_of_get?_ofList hpairs hdefinition
  have hlist := TypeDefinition.fields_of_mem (Members.mem_of_get? hfields) hdecoded
  obtain ⟨f, hf, hdecode⟩ := exists_getElem?_of_forall₂ (Reading.asList_ok hlist) hfield
  -- The definition makes a type of the catalog, which is the one with its alias.
  obtain ⟨e, he, hstores⟩ := exists_of_forall₂ (Catalog.stores_of_build hbuild).flip (aliasName, x)
    (Members.mem_of_get? hx)
  have hnodup : c.aliases.Nodup :=
    Catalog.nodup_aliases_of_build hbuild (Definitions.nodup_of_decode hdefs)
  have hfind : c.byAlias? e.aliasName = some e := find?_of_nodup hnodup he
  have hresolve : c.source.resolve aliasName = some e.identity := by
    rw [hstores.aliasName] at hfind
    simp only [Catalog.source, hfind, Option.map_some]
  obtain ⟨d, hd, hname, hannotations, -⟩ := exists_getElem?_of_forall₂ hstores.fields hf
  refine ⟨d, f, ⟨⟨_, _, hresolve, (accepted hc).fields_identity he, hd⟩, ?_⟩, hdecode, hannotations⟩
  rw [hname]
  exact FieldDefinition.exists_name hdecode

end SchemaTree
