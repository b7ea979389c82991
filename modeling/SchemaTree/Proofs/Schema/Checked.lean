import SchemaTree.Proofs.Check.Sites
import SchemaTree.Proofs.Schema.Places

/-!
# What a check finds in a document

The document of a schema is written and checked by two programs that know nothing of each other.
Every form that a field can take keeps the rules: it has a type or a reference, its bounds are
numbers, its choices are not empty.  Only its pattern can be rejected.

* `Schema.Proper`: the schemas that this is true of, legible and with all that rules ask of fields.
* `Field.ownRules_render`: **a field keeps all rules but the one on patterns.**
* `Schema.document_toValue`: **a check finds one violation for each rejected pattern**, in the
  order of the document, and nothing else.
-/

namespace SchemaTree

open Json

/-! ## Rules that are kept -/

namespace Check

variable {node : Members} {key : String} {root : Bool}

theorem ruleOn_eq_nil {ok : Value → Bool} {message : String}
    (h : ∀ v, Members.get? node key = some v → ok v = true) : ruleOn node key ok message = [] := by
  unfold ruleOn
  split
  · rename_i v hv
    rw [if_pos (h v hv)]
  · rfl

theorem typeRule_of_reference {r : String} (h : Members.get? node "$ref" = some (.string r)) :
    typeRule root node = [] := by
  rw [typeRule, h]
  rfl

theorem typeRule_of_kind {k : Kind} (hr : Members.get? node "$ref" = none)
    (h : Members.get? node "type" = some (.string k.name)) : typeRule root node = [] := by
  rw [typeRule, hr]
  simp only [h, Kind.ofName?_name]
  rfl

/-- The keys on which there are rules besides those on types. -/
def constraintKeys : List String :=
  ["required", "minimum", "maximum", "minLength", "maxLength", "pattern", "enum"]

theorem ownRules_of_unconstrained {rejection : String → Option String}
    (htype : typeRule root node = [])
    (h : ∀ key ∈ constraintKeys, Members.get? node key = none) :
    ownRules rejection root node = [] := by
  have hrule : ∀ key ∈ constraintKeys, ∀ ok message, ruleOn node key ok message = [] := by
    intro key hkey ok message
    refine ruleOn_eq_nil fun v hv => ?_
    rw [h key hkey] at hv
    cases hv
  have hpattern : patternRule rejection node = [] := by
    rw [patternRule, h "pattern" (by decide)]
  rw [ownRules, htype, hpattern, hrule "required" (by decide), hrule "minimum" (by decide),
    hrule "maximum" (by decide), hrule "minLength" (by decide), hrule "maxLength" (by decide),
    hrule "enum" (by decide)]
  rfl

end Check

/-! ## Members that are written -/

/-- The keys of the members that come from the kind of a field and from its link. -/
def Link.keys : List String :=
  ["title", "id", "$schema", "type", "description", "properties", "items", "$ref"]

theorem Schema.get?_render_eq_none (s : Schema) (root : Bool) {k : String} (hk : k ∉ Link.keys) :
    Members.get? (s.render root) k = none := by
  obtain ⟨h, fields⟩ := s
  simp only [Link.keys, List.mem_cons, List.not_mem_nil, or_false, not_or] at hk
  obtain ⟨h1, h2, h3, h4, h5, h6, -, -⟩ := hk
  simp only [Schema.render, Heading.render, Members.get?_insert, Property.get?_insertSome,
    Members.get?_cons, Members.get?_nil, if_neg (Ne.symm h1), if_neg (Ne.symm h2),
    if_neg (Ne.symm h3), if_neg (Ne.symm h4), if_neg (Ne.symm h5), if_neg (Ne.symm h6)]

theorem Schema.get?_render_type (s : Schema) (root : Bool) :
    Members.get? (s.render root) "type" = some (.string s.heading.kind.name) := by
  obtain ⟨h, fields⟩ := s
  simp [Schema.render, Heading.render, Property.get?_insertSome]

theorem Schema.get?_render_metaSchema (s : Schema) :
    Members.get? (s.render true) "$schema" = s.heading.metaSchema.map .string := by
  obtain ⟨h, fields⟩ := s
  simp [Schema.render, Heading.render, Property.get?_insertSome, Members.get?_cons]

theorem Property.get?_plain_eq_none (p : Property) {k : String} (hk : k ∉ Link.keys) :
    Members.get? p.plain k = none := by
  simp only [Link.keys, List.mem_cons, List.not_mem_nil, or_false, not_or] at hk
  obtain ⟨-, -, -, htype, -, -, hitems, -⟩ := hk
  unfold Property.plain
  split
  · rfl
  · cases p.items <;>
      simp only [Members.get?_cons, Members.get?_nil, if_neg (Ne.symm htype),
        if_neg (Ne.symm hitems)]
  · simp only [Members.get?_cons, Members.get?_nil, if_neg (Ne.symm htype)]

/-- **A link writes no other keys than its own.** -/
theorem Link.get?_render_eq_none (l : Link) (p : Property) {k : String} (hk : k ∉ Link.keys) :
    Members.get? (l.render p) k = Option.none := by
  have hplain := p.get?_plain_eq_none hk
  cases l with
  | none => exact hplain
  | nested s =>
    have hschema := s.get?_render_eq_none false hk
    simp only [Link.keys, List.mem_cons, List.not_mem_nil, or_false, not_or] at hk
    obtain ⟨-, -, -, htype, -, -, hitems, -⟩ := hk
    rw [Link.render]
    split
    · exact hschema
    · simp only [Members.get?_cons, Members.get?_nil, if_neg (Ne.symm htype),
        if_neg (Ne.symm hitems)]
    · exact hplain
  | deferred r =>
    simp only [Link.keys, List.mem_cons, List.not_mem_nil, or_false, not_or] at hk
    obtain ⟨-, -, -, htype, -, -, hitems, href⟩ := hk
    rw [Link.render]
    split
    · simp only [Members.get?_cons, Members.get?_nil, if_neg (Ne.symm href)]
    · simp only [Members.get?_cons, Members.get?_nil, if_neg (Ne.symm htype),
        if_neg (Ne.symm hitems)]
    · exact hplain

theorem Field.get?_render_constraints (f : Field) :
    Members.get? f.render "required" =
        (if f.property.required then some (.bool true) else none) ∧
      Members.get? f.render "minimum" = f.property.minimum.map .ofBound ∧
      Members.get? f.render "maximum" = f.property.maximum.map .ofBound ∧
      Members.get? f.render "minLength" = f.property.minLength.map .ofNat ∧
      Members.get? f.render "maxLength" = f.property.maxLength.map .ofNat ∧
      Members.get? f.render "pattern" = f.property.pattern.map .string ∧
      Members.get? f.render "enum" =
        (if f.property.choices.isEmpty then none else some (.array f.property.choices)) := by
  obtain ⟨p, l⟩ := f
  have hlink : ∀ k ∈ Check.constraintKeys, Members.get? (l.render p) k = none :=
    fun k hk => l.get?_render_eq_none p (by revert k; decide)
  have hrequired := hlink "required" (by decide)
  have hminimum := hlink "minimum" (by decide)
  have hmaximum := hlink "maximum" (by decide)
  have hminLength := hlink "minLength" (by decide)
  have hmaxLength := hlink "maxLength" (by decide)
  have hpattern := hlink "pattern" (by decide)
  have henum := hlink "enum" (by decide)
  cases hp : p.required <;>
    simp [Field.render, Property.overlay, Property.get?_insertSome, hp, hrequired, hminimum,
      hmaximum, hminLength, hmaxLength, hpattern, henum]

/-! ## Fields that keep the rules -/

/-- A field with a kind, whose bounds are finite. -/
structure Field.Proper (f : Field) : Prop where
  kind : f.property.kind.isSome = true
  minimum : ∀ d, f.property.minimum = some d → d.isFinite = true
  maximum : ∀ d, f.property.maximum = some d → d.isFinite = true

/-- A legible schema whose fields keep the rules. -/
structure Schema.Proper (s : Schema) : Prop extends s.Legible where
  proper : ∀ f ∈ s.fields, f.Proper

theorem Json.Value.isNumber_ofBound {d : Double} (h : d.isFinite = true) :
    (Value.ofBound d).isNumber = true := by
  have hdouble : (Value.ofDouble d).isNumber = true := by
    rw [Value.ofDouble, if_pos h]
    rfl
  rw [Value.ofBound]
  cases hd : Number.preferInteger d with
  | integer i => rfl
  | double d' =>
    have hsame : d' = d := by
      unfold Number.preferInteger at hd
      split at hd
      · split at hd
        · cases hd
        · cases hd
          rfl
      · cases hd
        rfl
    rw [hsame]
    exact hdouble

theorem Json.Value.isNatural_ofNat (n : Nat) : (Value.ofNat n).isNatural = true := by
  simp [Value.ofNat, Value.isNatural]

theorem Property.typeRule_plain {p : Property} {k : Kind} (h : p.kind = some k) :
    Members.get? p.plain "type" = some (.string k.name) := by
  unfold Property.plain
  rw [h]
  cases k <;> rfl

/-- **A link shows a type or a reference**, if the field has a kind. -/
theorem Link.type_or_reference (l : Link) {p : Property} {k : Kind} (h : p.kind = some k) :
    (∃ r, Members.get? (l.render p) "$ref" = some (.string r)) ∨
      Members.get? (l.render p) "$ref" = Option.none ∧
        ∃ k' : Kind, Members.get? (l.render p) "type" = some (.string k'.name) := by
  have hplain : Members.get? p.plain "$ref" = Option.none ∧
      ∃ k' : Kind, Members.get? p.plain "type" = some (.string k'.name) :=
    ⟨p.get?_plain.2.1, k, Property.typeRule_plain h⟩
  cases l with
  | none => exact Or.inr hplain
  | nested s =>
    rw [Link.render]
    split
    · exact Or.inr ⟨(s.get?_render false).2.2.2, s.heading.kind, s.get?_render_type false⟩
    · exact Or.inr ⟨rfl, .array, rfl⟩
    · exact Or.inr hplain
  | deferred r =>
    rw [Link.render]
    split
    · exact Or.inl ⟨r, rfl⟩
    · exact Or.inr ⟨rfl, .array, rfl⟩
    · exact Or.inr hplain

theorem Field.typeRule_render (f : Field) (h : f.property.kind.isSome = true) (root : Bool) :
    Check.typeRule root f.render = [] := by
  obtain ⟨k, hk⟩ := Option.isSome_iff_exists.mp h
  have href := f.get?_render (k := "$ref") (by decide)
  have htype := f.get?_render (k := "type") (by decide)
  rcases f.link.type_or_reference hk with ⟨r, hr⟩ | ⟨hr, k', hk'⟩
  · exact Check.typeRule_of_reference (href.trans hr)
  · exact Check.typeRule_of_kind (href.trans hr) (htype.trans hk')

/-- The violation of a field whose pattern is rejected. -/
def Field.violation? (rejection : String → Option String) (f : Field) (pointer : List String) :
    Option Violation :=
  (f.property.pattern.bind rejection).map fun reason =>
    ⟨Pointer.text pointer, "`pattern` does not compile: " ++ reason⟩

section

variable (rejection : String → Option String)

/-- **A field keeps all rules but the one on patterns**, if it has a kind and finite bounds. -/
theorem Field.ownRules_render {f : Field} (h : f.Proper) (pointer : List String) :
    (Check.ownRules rejection false f.render).map (⟨Pointer.text pointer, ·⟩) =
      (f.violation? rejection pointer).toList := by
  obtain ⟨hrequired, hminimum, hmaximum, hminLength, hmaxLength, hpattern, henum⟩ :=
    f.get?_render_constraints
  have hnumber : ∀ bound : Option Double, (∀ d, bound = some d → d.isFinite = true) →
      ∀ v, bound.map Value.ofBound = some v → v.isNumber = true := by
    rintro bound hbound v hv
    obtain ⟨d, hd, rfl⟩ := Option.map_eq_some_iff.mp hv
    exact Value.isNumber_ofBound (hbound d hd)
  have hnatural : ∀ bound : Option Nat, ∀ v, bound.map Value.ofNat = some v →
      v.isNatural = true := by
    rintro bound v hv
    obtain ⟨n, -, rfl⟩ := Option.map_eq_some_iff.mp hv
    exact Value.isNatural_ofNat n
  have hrule : ∀ message, Check.ruleOn f.render "required" Value.isBool message = [] := by
    refine fun message => Check.ruleOn_eq_nil fun v hv => ?_
    rw [hrequired] at hv
    split at hv
    · cases hv
      rfl
    · cases hv
  have hchoices : ∀ message, Check.ruleOn f.render "enum"
      (fun v => (v.asArray?.map (!·.isEmpty)).getD false) message = [] := by
    refine fun message => Check.ruleOn_eq_nil fun v hv => ?_
    rw [henum] at hv
    split at hv
    · cases hv
    · rename_i hne
      cases hv
      simpa [Value.asArray?] using hne
  have hbounds : Check.ownRules rejection false f.render =
      Check.patternRule rejection f.render := by
    rw [Check.ownRules, f.typeRule_render h.kind, hrule, hchoices,
      Check.ruleOn_eq_nil (hminimum ▸ hnumber _ h.minimum),
      Check.ruleOn_eq_nil (hmaximum ▸ hnumber _ h.maximum),
      Check.ruleOn_eq_nil (hminLength ▸ hnatural _),
      Check.ruleOn_eq_nil (hmaxLength ▸ hnatural _)]
    simp only [List.nil_append, List.append_nil]
  rw [hbounds, Check.patternRule, hpattern, Field.violation?]
  cases f.property.pattern with
  | none => rfl
  | some p =>
    simp only [Option.map_some, Option.bind_some]
    cases rejection p <;> rfl

/-! ## Nodes -/

theorem Check.node_of_single {key : String} {v : Value} (pointer otherwise : String)
    (hkey : key ∉ "properties" :: "items" :: Check.constraintKeys)
    (htype : ∀ root, Check.typeRule root [(key, v)] = []) :
    Check.node rejection pointer otherwise (.object [(key, v)]) = [] := by
  simp only [List.mem_cons, not_or] at hkey
  obtain ⟨hproperties, hitems, hconstraints⟩ := hkey
  have hrules : Check.ownRules rejection pointer.isEmpty [(key, v)] = [] := by
    refine Check.ownRules_of_unconstrained (htype _) fun k hk => ?_
    rw [Members.get?_cons, if_neg fun h : key = k => hconstraints (h ▸ hk), Members.get?_nil]
  rw [Check.node, hrules, Check.underProperties, if_neg hproperties, Check.underItems,
    if_neg hitems]
  rfl

theorem Check.node_kind (pointer otherwise : String) (k : Kind) :
    Check.node rejection pointer otherwise (.object [("type", .string k.name)]) = [] :=
  Check.node_of_single rejection pointer otherwise (by decide) fun _ =>
    Check.typeRule_of_kind rfl rfl

theorem Check.node_reference (pointer otherwise r : String) :
    Check.node rejection pointer otherwise (.object [("$ref", .string r)]) = [] :=
  Check.node_of_single rejection pointer otherwise (by decide) fun _ =>
    Check.typeRule_of_reference rfl

/-- The violations that the fields of a tree give. -/
def Schema.violations (s : Schema) (pointer : List String) : List Violation :=
  (s.places pointer).filterMap fun place => place.2.violation? rejection place.1

theorem Schema.violations_eq_nil_iff (s : Schema) (pointer : List String)
    (label : Option TypeId) (depth : Nat) :
    s.violations rejection pointer = [] ↔
      ∀ o ∈ s.occurrences label depth, ∀ f ∈ o.schema.fields, ∀ p,
        f.property.pattern = some p → rejection p = none := by
  have hfield : ∀ (f : Field) (path : List String), f.violation? rejection path = none ↔
      ∀ p, f.property.pattern = some p → rejection p = none := by
    intro f path
    rw [Field.violation?, Option.map_eq_none_iff, Option.bind_eq_none_iff]
  rw [Schema.violations, List.filterMap_eq_nil_iff]
  constructor
  · intro h o ho f hf
    obtain ⟨place, hplace, rfl⟩ := (s.mem_places pointer label depth f).mpr ⟨o, ho, hf⟩
    exact (hfield _ _).mp (h place hplace)
  · intro h place hplace
    obtain ⟨o, ho, hf⟩ := (s.mem_places pointer label depth place.2).mp ⟨place, hplace, rfl⟩
    exact (hfield _ _).mpr (h o ho place.2 hf)

/-- A schema is checked right if the violations below its node are those of its fields. -/
def Schema.CheckedBelow (s : Schema) : Prop :=
  ∀ (pointer : List String) (ms : Members),
    Members.get? ms "properties" = some (.object s.properties) →
      Check.underProperties rejection (Pointer.text pointer) ms = s.violations rejection pointer

variable {rejection}

theorem Schema.CheckedBelow.node {s : Schema} (h : s.CheckedBelow rejection)
    (pointer : List String) (otherwise : String) (root : Bool) :
    Check.node rejection (Pointer.text pointer) otherwise (.object (s.render root)) =
      s.violations rejection pointer := by
  obtain ⟨hproperties, -, hitems, href⟩ := s.get?_render root
  have hrules : ∀ root', Check.ownRules rejection root' (s.render root) = [] := by
    intro root'
    refine Check.ownRules_of_unconstrained
      (Check.typeRule_of_kind href (s.get?_render_type root)) fun k hk => ?_
    exact s.get?_render_eq_none root (by revert k; decide)
  rw [Check.node, hrules, Check.underItems_eq, hitems, h pointer _ hproperties]
  simp only [List.map_nil, List.nil_append, List.append_nil]

theorem get?_array (v : Value) :
    Members.get? [("type", .string "array"), ("items", v)] "properties" = none ∧
      Members.get? [("type", .string "array"), ("items", v)] "items" = some v := by
  simp [Members.get?_cons]

/-- **Below the node of a field stand the schema inside it, or nothing that breaks a rule.** -/
theorem Field.below_render {f : Field}
    (hkind : f.link ≠ .none → f.property.kind = some .object ∨ f.property.kind = some .array)
    (hin : ∀ sub, f.link = .nested sub → sub.CheckedBelow rejection) (pointer : List String) :
    Check.underProperties rejection (Pointer.text pointer) f.render ++
        Check.underItems rejection (Pointer.text pointer) f.render =
      (f.link.places (f.property.inside pointer)).filterMap fun place =>
        place.2.violation? rejection place.1 := by
  have hproperties := f.get?_render (k := "properties") (by decide)
  have hitems := f.get?_render (k := "items") (by decide)
  rw [Check.underItems_eq, hitems]
  cases hl : f.link with
  | none =>
    rw [hl, Link.render] at hproperties hitems
    obtain ⟨hnone, -, hkinds⟩ := f.property.get?_plain
    rw [Check.underProperties_eq, hproperties, hnone, Link.render]
    -- An array without a link may still name the kind of its items.
    cases hv : Members.get? f.property.plain "items" with
    | none => rfl
    | some v =>
      obtain ⟨k, rfl⟩ := hkinds v hv
      dsimp only
      rw [Check.node_kind]
      rfl
  | nested sub =>
    rw [hl] at hproperties
    rcases hkind (by rw [hl]; simp) with hk | hk
    · rw [Link.render, hk] at hproperties ⊢
      rw [(sub.get?_render false).1] at hproperties
      rw [hin sub hl pointer f.render hproperties, (sub.get?_render false).2.2.1]
      rw [Property.inside, hk, if_neg (by simp), Link.places, List.append_nil, Schema.violations]
    · obtain ⟨hnone, hsome⟩ := get?_array (.object (sub.render false))
      rw [Link.render, hk] at hproperties ⊢
      rw [Check.underProperties_eq, hproperties, hnone, hsome]
      rw [Property.inside, hk, if_pos rfl, Link.places, Pointer.itemsPointer_text]
      dsimp only
      rw [List.nil_append, (hin sub hl).node, Schema.violations]
  | deferred r =>
    rw [hl] at hproperties
    rcases hkind (by rw [hl]; simp) with hk | hk
    · rw [Link.render, hk] at hproperties ⊢
      rw [Check.underProperties_eq, hproperties]
      rfl
    · obtain ⟨hnone, hsome⟩ := get?_array (.object [("$ref", .string r)])
      rw [Link.render, hk] at hproperties ⊢
      rw [Check.underProperties_eq, hproperties, hnone, hsome]
      dsimp only
      rw [Check.node_reference]
      rfl

/-- **The node of a field has the violations of the field**, and then of those inside it. -/
theorem Field.node_render {f : Field} (hf : f.Proper)
    (hkind : f.link ≠ .none → f.property.kind = some .object ∨ f.property.kind = some .array)
    (hin : ∀ sub, f.link = .nested sub → sub.CheckedBelow rejection) (pointer : List String)
    (otherwise : String) :
    Check.node rejection (Check.propertyPointer (Pointer.text pointer) f.property.name) otherwise
        (.object f.render) =
      (f.places pointer).filterMap fun place => place.2.violation? rejection place.1 := by
  have hpointer : Check.propertyPointer (Pointer.text pointer) f.property.name =
      Pointer.text (f.pointer pointer) := Pointer.propertyPointer_text pointer f.property.name
  have hinner : (Pointer.text (f.pointer pointer)).isEmpty = false :=
    Pointer.isEmpty_text_append pointer (List.cons_ne_nil _ _)
  rw [hpointer, Check.node, hinner, f.places_eq, List.filterMap_cons, List.append_assoc,
    Field.ownRules_render rejection hf, Field.below_render hkind hin]
  cases f.violation? rejection (f.pointer pointer) <;> rfl

/-- **Below a node with the properties of a tree, a check finds the violations of its fields**, if
all its schemas are proper. -/
theorem Schema.checkedBelow {s : Schema} {label : Option TypeId} {depth : Nat}
    (h : ∀ o ∈ s.occurrences label depth, o.schema.Proper) : s.CheckedBelow rejection := by
  induction s using Schema.nested_induction generalizing label depth with
  | mk hd fields ih =>
    have hroot := h _ (Schema.self_mem_occurrences _ label depth)
    intro pointer ms hproperties
    rw [Check.underProperties_eq, hproperties]
    dsimp only
    rw [Check.propertiesNode, Check.eachProperty_eq, hroot.toLegible.properties_eq,
      List.flatMap_map, Schema.violations, Schema.places_eq, List.filterMap_flatMap]
    refine List.flatMap_congr fun f hf => ?_
    exact Field.node_render (hroot.proper f hf) (hroot.kinds f hf)
      (fun sub hl => ih f hf sub hl (Schema.forall_nested h hf hl)) pointer _

/-! ## Documents -/

/-- **A check finds one violation for each field whose pattern is rejected**, in the order of the
document, and nothing else, if all schemas of the tree are proper and the root has the heading of a
document. -/
theorem Schema.document_toValue {s : Schema} {label : Option TypeId} {depth : Nat}
    (h : ∀ o ∈ s.occurrences label depth, o.schema.Proper) (hkind : s.heading.kind = .object)
    (hmeta : s.heading.metaSchema.isSome = true) :
    Check.document rejection s.toValue = s.violations rejection [] := by
  have hroot : Check.rootRules (s.render true) = [] := by
    obtain ⟨m, hm⟩ := Option.isSome_iff_exists.mp hmeta
    rw [Check.rootRules, s.get?_render_metaSchema, s.get?_render_type, hkind, hm]
    rfl
  have hbelow : s.CheckedBelow rejection := Schema.checkedBelow h
  have hnode := hbelow.node [] "document root must be an object" true
  rw [Schema.toValue, Check.document, hroot, List.map_nil, List.nil_append]
  exact hnode

end

end SchemaTree
