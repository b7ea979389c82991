import SchemaTree.Proofs.Json.Pointer
import SchemaTree.Proofs.Schema.Document

/-!
# Where fields stand in a document

The fields of a schema stand among the properties of its node.  The schema inside a field stands
where the field stands, or among its items if the field is an array.

* `Schema.places`: all fields of a tree with the pointers to them, each before those inside it.
* `Schema.places_sublist_toValue`: their pointers are met one after the other in the document.
* `Schema.mem_places`: they are the fields of the schemas of the tree.
* `Schema.FoundAt.find?_of_mem_places`: **the pointer of a field leads to the field**, if the schemas of
  the tree are legible.
-/

namespace SchemaTree

open Json

/-- The pointer to the schema inside a field. -/
def Property.inside (p : Property) (pointer : List String) : List String :=
  if p.kind = some .array then pointer ++ ["items"] else pointer

mutual

/-- The fields of a tree, each behind its pointer and before those inside it; the root of the tree
stands at `pointer`. -/
def Schema.places (pointer : List String) : Schema → List (List String × Field)
  | .mk _ fields => Field.placesAll pointer fields

def Field.placesAll (pointer : List String) : List Field → List (List String × Field)
  | [] => []
  | f :: fs => f.places pointer ++ Field.placesAll pointer fs

def Field.places (pointer : List String) : Field → List (List String × Field)
  | .mk p link =>
    (pointer ++ ["properties", p.name], .mk p link) ::
      link.places (p.inside (pointer ++ ["properties", p.name]))

def Link.places (pointer : List String) : Link → List (List String × Field)
  | .none => []
  | .nested s => s.places pointer
  | .deferred _ => []

end

/-- The pointer to a field of the node at a pointer. -/
def Field.pointer (f : Field) (pointer : List String) : List String :=
  pointer ++ ["properties", f.property.name]

variable {s sub : Schema} {f g : Field} {fs : List Field} {pointer : List String}
  {place : List String × Field}

theorem Field.places_eq (f : Field) (pointer : List String) :
    f.places pointer =
      (f.pointer pointer, f) :: f.link.places (f.property.inside (f.pointer pointer)) := by
  obtain ⟨p, l⟩ := f
  rfl

theorem Field.placesAll_eq (fs : List Field) (pointer : List String) :
    Field.placesAll pointer fs = fs.flatMap (Field.places pointer) := by
  induction fs with
  | nil => rfl
  | cons f fs ih => rw [Field.placesAll, List.flatMap_cons, ih]

theorem Schema.places_eq (s : Schema) (pointer : List String) :
    s.places pointer = s.fields.flatMap (Field.places pointer) := by
  obtain ⟨h, fields⟩ := s
  exact Field.placesAll_eq fields pointer

theorem Schema.mem_places_iff : place ∈ s.places pointer ↔
    ∃ f ∈ s.fields, place = (f.pointer pointer, f) ∨
      ∃ sub, f.link = .nested sub ∧
        place ∈ sub.places (f.property.inside (f.pointer pointer)) := by
  rw [Schema.places_eq, List.mem_flatMap]
  refine exists_congr fun f => and_congr_right fun _ => ?_
  rw [Field.places_eq, List.mem_cons]
  cases f.link <;> simp [Link.places]

/-- **The fields of a tree are those of the schemas in it.** -/
theorem Schema.mem_places (s : Schema) (pointer : List String) (label : Option TypeId)
    (depth : Nat) (g : Field) :
    (∃ place ∈ s.places pointer, place.2 = g) ↔
      ∃ o ∈ s.occurrences label depth, g ∈ o.schema.fields := by
  induction s using Schema.nested_induction generalizing pointer label depth with
  | mk h fields ih =>
    constructor
    · rintro ⟨place, hplace, rfl⟩
      obtain ⟨f, hf, rfl | ⟨sub, hl, hsub⟩⟩ := Schema.mem_places_iff.mp hplace
      · exact ⟨_, Schema.self_mem_occurrences _ label depth, hf⟩
      · obtain ⟨o, ho, hg⟩ :=
          (ih f hf sub hl _ f.property.object (depth + 1)).mp ⟨place, hsub, rfl⟩
        exact ⟨o, Schema.mem_occurrences.mpr (Or.inr ⟨f, hf, sub, hl, ho⟩), hg⟩
    · rintro ⟨o, ho, hg⟩
      rcases Schema.mem_occurrences.mp ho with rfl | ⟨f, hf, sub, hl, hm⟩
      · exact ⟨_, Schema.mem_places_iff.mpr ⟨g, hg, Or.inl rfl⟩, rfl⟩
      · obtain ⟨place, hplace, hp⟩ := (ih f hf sub hl _ _ _).mpr ⟨o, hm, hg⟩
        exact ⟨place, Schema.mem_places_iff.mpr ⟨f, hf, Or.inr ⟨sub, hl, hplace⟩⟩, hp⟩

theorem Schema.forall_nested {P : Schema → Prop} {label : Option TypeId} {depth : Nat}
    (h : ∀ o ∈ s.occurrences label depth, P o.schema) (hf : f ∈ s.fields)
    (hl : f.link = .nested sub) :
    ∀ o ∈ sub.occurrences f.property.object (depth + 1), P o.schema :=
  fun o ho => h o (Schema.mem_occurrences.mpr (Or.inr ⟨f, hf, sub, hl, ho⟩))

/-! ## Pointers lead to fields -/

theorem Field.properties_of_object (hl : f.link = .nested sub)
    (hk : f.property.kind = some .object) :
    Members.get? f.render "properties" = some (.object sub.properties) := by
  rw [f.get?_render (by decide), hl, Link.render, hk]
  exact (sub.get?_render false).1

theorem Field.items_of_array (hl : f.link = .nested sub)
    (hk : f.property.kind = some .array) :
    Members.get? f.render "items" = some (.object (sub.render false)) := by
  rw [f.get?_render (by decide), hl, Link.render, hk]
  simp [Members.get?_cons]

/-- A schema is found at a pointer where an object has its properties. -/
def Schema.FoundAt (doc : Value) (pointer : List String) (s : Schema) : Prop :=
  ∃ ms, Pointer.find? doc pointer = some (.object ms) ∧
    Members.get? ms "properties" = some (.object s.properties)

variable {doc : Value} {label : Option TypeId} {depth : Nat}

theorem Schema.foundAt_root (s : Schema) : s.FoundAt s.toValue [] :=
  ⟨s.render true, rfl, (s.get?_render true).1⟩

theorem Schema.FoundAt.find?_pointer (h : s.FoundAt doc pointer) (hs : s.Legible)
    (hf : f ∈ s.fields) : Pointer.find? doc (f.pointer pointer) = some f.toValue := by
  obtain ⟨ms, hfind, hproperties⟩ := h
  have hfield := hs.get?_properties hf
  simp only [Field.pointer, Pointer.find?_append, hfind, Option.bind_some, Pointer.find?,
    hproperties, hfield, Field.toValue]

theorem Schema.FoundAt.nested (h : s.FoundAt doc pointer) (hs : s.Legible) (hf : f ∈ s.fields)
    (hl : f.link = .nested sub) :
    sub.FoundAt doc (f.property.inside (f.pointer pointer)) := by
  have hfind := h.find?_pointer hs hf
  rcases hs.kinds f hf (by rw [hl]; simp) with hk | hk
  · refine ⟨f.render, ?_, Field.properties_of_object hl hk⟩
    rw [Property.inside, hk, if_neg (by simp), hfind, Field.toValue]
  · refine ⟨sub.render false, ?_, (sub.get?_render false).1⟩
    simp only [Property.inside, hk, if_true, Pointer.find?_append, hfind, Option.bind_some,
      Field.toValue, Pointer.find?, Field.items_of_array hl hk]

/-- **The pointers of a tree lead to its fields**, if all its schemas are legible. -/
theorem Schema.FoundAt.find?_of_mem_places (h : s.FoundAt doc pointer)
    (hs : ∀ o ∈ s.occurrences label depth, o.schema.Legible) :
    ∀ place ∈ s.places pointer, Pointer.find? doc place.1 = some place.2.toValue := by
  induction s using Schema.nested_induction generalizing pointer label depth with
  | mk hd fields ih =>
    have hroot := hs _ (Schema.self_mem_occurrences _ label depth)
    intro place hplace
    obtain ⟨f, hf, rfl | ⟨sub, hl, hsub⟩⟩ := Schema.mem_places_iff.mp hplace
    · exact h.find?_pointer hroot hf
    · exact ih f hf sub hl (h.nested hroot hf hl) (Schema.forall_nested hs hf hl) place hsub

/-! ## The order of a document -/

theorem Schema.Legible.properties_eq {s : Schema} (h : s.Legible) :
    s.properties = s.fields.map fun f => (f.property.name, .object f.render) := by
  have hall : ∀ fs : List Field, (∀ f ∈ fs, f.property.ignored = false) →
      Field.renderAll fs = fs.map fun f => (f.property.name, .object f.render) := by
    intro fs hfs
    induction fs with
    | nil => rfl
    | cons f fs ih =>
      obtain ⟨hf, hrest⟩ := List.forall_mem_cons.mp hfs
      rw [Field.renderAll, if_neg (by rw [hf]; simp), List.map_cons, ih hrest]
  have hnames : ((Field.renderAll s.fields).map (·.1)).Nodup :=
    h.names.sublist (Field.map_fst_renderAll s.fields)
  rw [Schema.properties, Members.ofList_of_nodup hnames, hall s.fields h.live]

theorem flatMap_sublist {α β : Type} {as : List α} {l l' : α → List β}
    (h : ∀ a ∈ as, (l a).Sublist (l' a)) : (as.flatMap l).Sublist (as.flatMap l') := by
  induction as with
  | nil => exact List.Sublist.slnil
  | cons a as ih =>
    obtain ⟨ha, hrest⟩ := List.forall_mem_cons.mp h
    rw [List.flatMap_cons, List.flatMap_cons]
    exact ha.append (ih hrest)

theorem Json.Pointer.sublist_of_member {pointer : List String} {key : String} {ms inner : Members}
    {pointers : List (List String)} (hm : Members.get? ms key = some (.object inner))
    (h : pointers.Sublist ((Pointer.allMembers inner).map (pointer ++ [key] ++ ·))) :
    pointers.Sublist ((Pointer.allMembers ms).map (pointer ++ ·)) := by
  have hmember := (Pointer.sublist_allMembers hm).map (pointer ++ ·)
  have hlonger : (fun path => pointer ++ [key] ++ path) = (pointer ++ ·) ∘ (key :: ·) := by
    funext path
    rw [Function.comp_apply, List.append_assoc, List.singleton_append]
  rw [Pointer.all, List.map_cons, List.map_cons, List.map_map] at hmember
  rw [hlonger] at h
  exact h.trans ((List.sublist_cons_self _ _).trans hmember)

/-- **The fields of a tree come in the order of the document**: below a node that has the properties
of a schema, their pointers are met one after the other. -/
theorem Schema.places_sublist (hs : ∀ o ∈ s.occurrences label depth, o.schema.Legible)
    (pointer : List String) {ms : Members}
    (hproperties : Members.get? ms "properties" = some (.object s.properties)) :
    ((s.places pointer).map (·.1)).Sublist ((Pointer.allMembers ms).map (pointer ++ ·)) := by
  induction s using Schema.nested_induction generalizing pointer label depth ms with
  | mk hd fields ih =>
    have hroot := hs _ (Schema.self_mem_occurrences _ label depth)
    have hfield : ∀ f ∈ fields, ((f.places pointer).map (·.1)).Sublist
        ((Pointer.all f.toValue).map (f.pointer pointer ++ ·)) := by
      intro f hf
      rw [f.places_eq, Field.toValue, Pointer.all, List.map_cons, List.map_cons, List.append_nil]
      -- The node of a field comes before all that lies inside it.
      refine List.Sublist.cons_cons _ ?_
      cases hl : f.link with
      | none => exact List.nil_sublist _
      | deferred r => exact List.nil_sublist _
      | nested sub =>
        have hsub := Schema.forall_nested hs hf hl
        rw [Link.places, Property.inside]
        rcases hroot.kinds f hf (by rw [hl]; simp) with hk | hk
        · rw [hk, if_neg (by simp)]
          exact ih f hf sub hl hsub (f.pointer pointer) (Field.properties_of_object hl hk)
        · rw [hk, if_pos rfl]
          exact Pointer.sublist_of_member (Field.items_of_array hl hk)
            (ih f hf sub hl hsub _ (sub.get?_render false).1)
    refine Pointer.sublist_of_member hproperties ?_
    rw [Schema.places_eq, List.map_flatMap, hroot.properties_eq, Pointer.allMembers_eq,
      List.flatMap_map, List.map_flatMap]
    refine flatMap_sublist fun f hf => ?_
    have hlonger : (f.pointer pointer ++ ·) =
        (pointer ++ ["properties"] ++ ·) ∘ (f.property.name :: ·) := by
      funext path
      simp [Field.pointer]
    rw [List.map_map, ← hlonger]
    exact hfield f hf

theorem Schema.places_sublist_toValue (hs : ∀ o ∈ s.occurrences label depth, o.schema.Legible) :
    ((s.places []).map (·.1)).Sublist (Pointer.all s.toValue) := by
  have hbelow := Schema.places_sublist hs [] (s.get?_render true).1
  simp only [List.nil_append, List.map_id'] at hbelow
  rw [Schema.toValue, Pointer.all]
  exact hbelow.trans (List.sublist_cons_self _ _)

end SchemaTree
