import SchemaTree.Proofs.Check.Rules
import SchemaTree.Proofs.Json.Pointer

/-!
# The sites of a check

A check goes from the root of a document through the members of `properties` and through `items`.
The values that it meets, with the pointers to them, are its *sites*.

* `Reached`: the sites that can be reached from the root.
* `sites`: all of them, **each before those inside it, its properties in order and then its items.**
* `Site.violations`: what is wrong at a site, by the rules that it breaks.
* `document_eq`: **a check reports what is wrong at its sites, one after the other.**
-/

namespace SchemaTree.Check

open Json

/-- A value that a check looks at: the keys that lead to it, and what it stands for. -/
structure Site where
  pointer : List String
  role : Role
  value : Value

/-- The sites of a document: the root, the properties of a node, and the items of a node. -/
inductive Reached (doc : Value) : Site → Prop
  | root : Reached doc ⟨[], .root, doc⟩
  | property {pointer : List String} {role : Role} {node properties : Members} {name : String}
      {v : Value} (h : Reached doc ⟨pointer, role, .object node⟩)
      (hproperties : Members.get? node "properties" = some (.object properties))
      (hv : (name, v) ∈ properties) : Reached doc ⟨pointer ++ ["properties", name], .property, v⟩
  | items {pointer : List String} {role : Role} {node : Members} {v : Value}
      (h : Reached doc ⟨pointer, role, .object node⟩)
      (hv : Members.get? node "items" = some v) : Reached doc ⟨pointer ++ ["items"], .items, v⟩

namespace Site

/-- The sites of the properties of a node, in their order. -/
def ofProperties (pointer : List String) (node : Members) : List Site :=
  match Members.get? node "properties" with
  | some (.object properties) =>
    properties.map fun e => ⟨pointer ++ ["properties", e.1], .property, e.2⟩
  | _ => []

/-- The site of the items of a node, if there are any. -/
def ofItems (pointer : List String) (node : Members) : List Site :=
  match Members.get? node "items" with
  | some v => [⟨pointer ++ ["items"], .items, v⟩]
  | none => []

/-- The sites right inside a site. -/
def inner (s : Site) : List Site :=
  match s.value with
  | .object node => ofProperties s.pointer node ++ ofItems s.pointer node
  | _ => []

theorem inner_object (pointer : List String) (role : Role) (node : Members) :
    inner ⟨pointer, role, .object node⟩ = ofProperties pointer node ++ ofItems pointer node := rfl

theorem mem_inner {s s' : Site} (h : s' ∈ s.inner) : ∃ node, s.value = .object node ∧
    ((∃ properties name v, Members.get? node "properties" = some (.object properties) ∧
        (name, v) ∈ properties ∧ s' = ⟨s.pointer ++ ["properties", name], .property, v⟩) ∨
      ∃ v, Members.get? node "items" = some v ∧ s' = ⟨s.pointer ++ ["items"], .items, v⟩) := by
  unfold inner at h
  split at h
  · rename_i node hnode
    refine ⟨node, hnode, ?_⟩
    rcases List.mem_append.mp h with h | h
    · left
      unfold ofProperties at h
      split at h
      · rename_i properties hproperties
        obtain ⟨⟨name, v⟩, hv, rfl⟩ := List.mem_map.mp h
        exact ⟨properties, name, v, hproperties, hv, rfl⟩
      · exact absurd h List.not_mem_nil
    · right
      unfold ofItems at h
      split at h
      · rename_i v hv
        exact ⟨v, hv, List.mem_singleton.mp h⟩
      · exact absurd h List.not_mem_nil
  · exact absurd h List.not_mem_nil

theorem inner_inside {s s' : Site} (h : s' ∈ s.inner) : s'.role ≠ .root ∧ s'.pointer ≠ [] := by
  obtain ⟨node, -, ⟨properties, name, v, -, -, rfl⟩ | ⟨v, -, rfl⟩⟩ := mem_inner h <;> simp

theorem sizeOf_inner {s s' : Site} (h : s' ∈ s.inner) : sizeOf s'.value < sizeOf s.value := by
  have hmember : ∀ {ms : Members} {k : String} {v : Value}, (k, v) ∈ ms → sizeOf v < sizeOf ms := by
    intro ms k v hv
    have hsize := List.sizeOf_lt_of_mem hv
    rw [Prod.mk.sizeOf_spec] at hsize
    omega
  obtain ⟨node, hnode, ⟨properties, name, v, hproperties, hv, rfl⟩ | ⟨v, hv, rfl⟩⟩ := mem_inner h
  · have houter := hmember (Members.mem_of_get? hproperties)
    have hinner := hmember hv
    rw [hnode]
    rw [Value.object.sizeOf_spec] at houter ⊢
    dsimp only
    omega
  · have houter := hmember (Members.mem_of_get? hv)
    rw [hnode, Value.object.sizeOf_spec]
    dsimp only
    omega

theorem inner_induction {P : Site → Prop} (h : ∀ s, (∀ s' ∈ s.inner, P s') → P s) (s : Site) :
    P s :=
  h s fun s' _ => inner_induction h s'
termination_by sizeOf s.value
decreasing_by exact sizeOf_inner ‹_›

/-- A site and all sites inside it, each before those inside it. -/
def all (s : Site) : List Site := s :: s.inner.attach.flatMap fun s' => s'.1.all
termination_by sizeOf s.value
decreasing_by exact sizeOf_inner s'.2

theorem all_eq (s : Site) : s.all = s :: s.inner.flatMap all := by
  rw [all, List.flatMap_subtype fun s' _ => rfl, List.unattach_attach]

/-- What is wrong at a site: the rules that a node breaks, or that there is no node. -/
def violations (rejection : String → Option String) (s : Site) : List Violation :=
  match s.value with
  | .object node =>
    (complaints rejection s.role node Rule.all).map (⟨Pointer.text s.pointer, ·⟩)
  | _ => [⟨Pointer.text s.pointer, s.role.otherwise⟩]

end Site

/-- All sites of a document. -/
def sites (doc : Value) : List Site := Site.all ⟨[], .root, doc⟩

/-! ## Sites inside sites -/

section

variable {s s' : Site} {doc : Value} {pointer : List String} {role : Role} {node : Members}

theorem Site.property_mem_inner {properties : Members} {name : String} {v : Value}
    (hproperties : Members.get? node "properties" = some (.object properties))
    (hv : (name, v) ∈ properties) :
    ⟨pointer ++ ["properties", name], .property, v⟩ ∈ inner ⟨pointer, role, .object node⟩ := by
  rw [inner_object, ofProperties, hproperties]
  exact List.mem_append_left _ (List.mem_map.mpr ⟨(name, v), hv, rfl⟩)

theorem Site.items_mem_inner {v : Value} (hv : Members.get? node "items" = some v) :
    ⟨pointer ++ ["items"], .items, v⟩ ∈ inner ⟨pointer, role, .object node⟩ := by
  rw [inner_object, ofItems, hv]
  exact List.mem_append_right _ (List.mem_singleton_self _)

theorem Reached.inner (h : Reached doc s) (hs : s' ∈ s.inner) : Reached doc s' := by
  obtain ⟨pointer, role, v⟩ := s
  obtain ⟨node, hnode, hinner⟩ := Site.mem_inner hs
  obtain rfl : v = .object node := hnode
  rcases hinner with ⟨properties, name, w, hproperties, hw, rfl⟩ | ⟨w, hw, rfl⟩
  · exact h.property hproperties hw
  · exact h.items hw

theorem Site.self_mem_all (s : Site) : s ∈ s.all := by
  rw [all_eq]
  exact List.mem_cons_self

theorem Site.forall_all {P : Site → Prop} (hs : P s) (h : ∀ s s', P s → s' ∈ s.inner → P s') :
    ∀ s' ∈ s.all, P s' := by
  induction s using inner_induction with
  | h s ih =>
    rw [all_eq]
    refine List.forall_mem_cons.mpr ⟨hs, fun s'' hs'' => ?_⟩
    obtain ⟨s', hs', hall⟩ := List.mem_flatMap.mp hs''
    exact ih s' hs' (h s s' hs hs') s'' hall

theorem Site.mem_all_of_inner {s'' : Site} (h : s' ∈ s.all) (hs'' : s'' ∈ s'.inner) :
    s'' ∈ s.all := by
  induction s using inner_induction with
  | h s ih =>
    rw [all_eq] at h ⊢
    rcases List.mem_cons.mp h with rfl | h
    · exact List.mem_cons_of_mem _ (List.mem_flatMap.mpr ⟨s'', hs'', s''.self_mem_all⟩)
    · obtain ⟨s₁, hs₁, hall⟩ := List.mem_flatMap.mp h
      exact List.mem_cons_of_mem _ (List.mem_flatMap.mpr ⟨s₁, hs₁, ih s₁ hs₁ hall⟩)

/-- **The sites of a document are those that can be reached from its root.** -/
theorem mem_sites : s ∈ sites doc ↔ Reached doc s := by
  constructor
  · exact Site.forall_all Reached.root (fun _ _ h hs => h.inner hs) s
  · intro h
    induction h with
    | root => exact Site.self_mem_all _
    | property _ hproperties hv ih =>
      exact Site.mem_all_of_inner ih (Site.property_mem_inner hproperties hv)
    | items _ hv ih => exact Site.mem_all_of_inner ih (Site.items_mem_inner hv)

end

/-! ## Checks, site by site -/

section

variable {node : Members}

theorem underProperties_eq (rejection : String → Option String) (pointer : String) :
    underProperties rejection pointer node =
      match Members.get? node "properties" with
      | some v => propertiesNode rejection pointer v
      | none => [] := by
  induction node with
  | nil => rfl
  | cons e node ih =>
    obtain ⟨k, v⟩ := e
    rw [underProperties, Members.get?_cons]
    by_cases hk : k = "properties"
    · rw [if_pos hk, if_pos hk]
    · rw [if_neg hk, if_neg hk, ih]

theorem underItems_eq (rejection : String → Option String) (pointer : String) :
    underItems rejection pointer node =
      match Members.get? node "items" with
      | some v => Check.node rejection (itemsPointer pointer) "`items` must be a schema object" v
      | none => [] := by
  induction node with
  | nil => rfl
  | cons e node ih =>
    obtain ⟨k, v⟩ := e
    rw [underItems, Members.get?_cons]
    by_cases hk : k = "items"
    · rw [if_pos hk, if_pos hk]
    · rw [if_neg hk, if_neg hk, ih]

theorem eachProperty_eq (rejection : String → Option String) (pointer : String) :
    eachProperty rejection pointer node = node.flatMap fun e =>
      Check.node rejection (propertyPointer pointer e.1) "property schema must be an object"
        e.2 := by
  induction node with
  | nil => rfl
  | cons e node ih =>
    obtain ⟨k, v⟩ := e
    rw [eachProperty, ih, List.flatMap_cons]

end

variable (rejection : String → Option String)

theorem inside_eq (pointer : List String) (role : Role) (node : Members) :
    underProperties rejection (Pointer.text pointer) node ++
        underItems rejection (Pointer.text pointer) node =
      (complaints rejection role node [.properties]).map (⟨Pointer.text pointer, ·⟩) ++
        (Site.inner ⟨pointer, role, .object node⟩).flatMap fun s =>
          Check.node rejection (Pointer.text s.pointer) s.role.otherwise s.value := by
  have hitems : underItems rejection (Pointer.text pointer) node =
      (Site.ofItems pointer node).flatMap fun s =>
        Check.node rejection (Pointer.text s.pointer) s.role.otherwise s.value := by
    rw [underItems_eq, Site.ofItems]
    cases Members.get? node "items" with
    | none => rfl
    | some v =>
      rw [List.flatMap_singleton, ← Pointer.itemsPointer_text]
      rfl
  have hproperties : underProperties rejection (Pointer.text pointer) node =
      (complaints rejection role node [.properties]).map (⟨Pointer.text pointer, ·⟩) ++
        (Site.ofProperties pointer node).flatMap fun s =>
          Check.node rejection (Pointer.text s.pointer) s.role.otherwise s.value := by
    rw [underProperties_eq, Site.ofProperties, complaints_cons, Rule.test]
    cases Members.get? node "properties" with
    | none => rfl
    | some v =>
      cases v with
      | object properties =>
        dsimp only
        rw [propertiesNode, eachProperty_eq, List.flatMap_map]
        simp only [Pointer.propertyPointer_text]
        rfl
      | _ => rfl
  rw [hproperties, hitems, Site.inner_object, List.flatMap_append, List.append_assoc]

theorem violations_object (pointer : List String) (role : Role) (node : Members) :
    Site.violations rejection ⟨pointer, role, .object node⟩ =
      (complaints rejection role node Rule.atRoot).map (⟨Pointer.text pointer, ·⟩) ++
        (complaints rejection role node Rule.own).map (⟨Pointer.text pointer, ·⟩) ++
          (complaints rejection role node [.properties]).map (⟨Pointer.text pointer, ·⟩) := by
  rw [← List.map_append, ← List.map_append, ← complaints_append, ← complaints_append]
  rfl

theorem node_object (pointer : List String) (role : Role) (node : Members)
    (h : (Pointer.text pointer).isEmpty = (role == .root)) (otherwise : String) :
    (complaints rejection role node Rule.atRoot).map (⟨Pointer.text pointer, ·⟩) ++
        Check.node rejection (Pointer.text pointer) otherwise (.object node) =
      Site.violations rejection ⟨pointer, role, .object node⟩ ++
        (Site.inner ⟨pointer, role, .object node⟩).flatMap fun s =>
          Check.node rejection (Pointer.text s.pointer) s.role.otherwise s.value := by
  rw [Check.node, h, ownRules_eq, violations_object, List.append_assoc _ _ (underItems _ _ _),
    inside_eq rejection pointer role node]
  simp only [List.append_assoc]

/-- **A node is reported with all sites inside it**, if it is not the root. -/
theorem node_eq {s : Site} (hrole : s.role ≠ .root) (hpointer : s.pointer ≠ []) :
    node rejection (Pointer.text s.pointer) s.role.otherwise s.value =
      s.all.flatMap (Site.violations rejection) := by
  induction s using Site.inner_induction with
  | h s ih =>
    obtain ⟨pointer, role, v⟩ := s
    rw [Site.all_eq, List.flatMap_cons, List.flatMap_assoc]
    cases v with
    | object node =>
      have hempty : (Pointer.text pointer).isEmpty = (role == .root) :=
        (Pointer.isEmpty_text_append [] hpointer).trans (beq_eq_false_iff_ne.mpr hrole).symm
      have hobject := node_object rejection pointer role node hempty role.otherwise
      rw [complaints_atRoot hrole, List.map_nil, List.nil_append] at hobject
      refine hobject.trans (congrArg _ (List.flatMap_congr fun s' hs' => ?_))
      obtain ⟨hrole', hpointer'⟩ := Site.inner_inside hs'
      exact ih s' hs' hrole' hpointer'
    | _ => rfl

/-- **A check reports what is wrong at the sites of a document, one after the other.** -/
theorem document_eq (doc : Value) :
    document rejection doc = (sites doc).flatMap (Site.violations rejection) := by
  rw [sites, Site.all_eq, List.flatMap_cons, List.flatMap_assoc]
  cases doc with
  | object node =>
    rw [document, @rootRules_eq rejection]
    refine (node_object rejection [] .root node rfl _).trans
      (congrArg _ (List.flatMap_congr fun s hs => ?_))
    obtain ⟨hrole, hpointer⟩ := Site.inner_inside hs
    exact node_eq rejection hrole hpointer
  | _ => rfl

end SchemaTree.Check
