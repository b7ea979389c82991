import Mathlib.Data.Option.Basic
import SchemaTree.Check
import SchemaTree.Proofs.Json.Members

/-!
# The rules of schema documents

What is asked of a node of a schema document, rule by rule, and what is said where a rule is broken.

* `Rule.Kept`: whether a node keeps a rule, which depends on what it stands for in its document.
* `Rule.broken`: the rules that a node breaks, in the order in which they are listed.
* `rootRules_eq`, `ownRules_eq`: **a check of a node reports the rules that it breaks, and no
  others.**
-/

namespace SchemaTree.Check

open Json

/-- What a value that is checked stands for in its document. -/
inductive Role where
  | root
  | property
  | items
  deriving DecidableEq, Repr

/-- What is said of a value that is no object. -/
def Role.otherwise : Role → String
  | root => "document root must be an object"
  | property => "property schema must be an object"
  | items => "`items` must be a schema object"

/-- The rules of a node. -/
inductive Rule where
  | metaSchema
  | rootType
  | type
  | required
  | minimum
  | maximum
  | minLength
  | maxLength
  | pattern
  | choices
  | properties
  deriving DecidableEq, Repr

namespace Rule

/-- The rules that only the root has to keep. -/
def atRoot : List Rule := [metaSchema, rootType]

/-- The rules of all nodes on their own members. -/
def own : List Rule :=
  [type, required, minimum, maximum, minLength, maxLength, pattern, choices]

/-- All rules, in the order in which they are checked. -/
def all : List Rule := atRoot ++ own ++ [properties]

theorem mem_all (r : Rule) : r ∈ all := by
  cases r <;> decide

section

variable (rejection : String → Option String) (role : Role) (node : Members)

/-- Whether a node keeps a rule.  A reference makes up for a type, and the type of the root has a rule
of its own; all other rules are about what stands under a key if it is there. -/
def Kept : Rule → Prop
  | metaSchema => role = .root → ∃ s, Members.get? node "$schema" = some (.string s)
  | rootType => role = .root → Members.get? node "type" = some (.string "object")
  | type => (∃ s, Members.get? node "$ref" = some (.string s)) ∨
      Members.get? node "$ref" = none ∧
        ((∃ k : Kind, Members.get? node "type" = some (.string k.name)) ∨
          role = .root ∧ Members.get? node "type" = none)
  | required => ∀ v, Members.get? node "required" = some v → ∃ b, v = .bool b
  | minimum => ∀ v, Members.get? node "minimum" = some v → ∃ n, v = .number n
  | maximum => ∀ v, Members.get? node "maximum" = some v → ∃ n, v = .number n
  | minLength => ∀ v, Members.get? node "minLength" = some v → ∃ n : Nat, v = .number (.integer n)
  | maxLength => ∀ v, Members.get? node "maxLength" = some v → ∃ n : Nat, v = .number (.integer n)
  | pattern => ∀ v, Members.get? node "pattern" = some v → ∃ p, v = .string p ∧ rejection p = none
  | choices => ∀ v, Members.get? node "enum" = some v → ∃ x xs, v = .array (x :: xs)
  | properties => ∀ v, Members.get? node "properties" = some v → ∃ ms, v = .object ms

/-- What is said of a node that breaks a rule. -/
def message : Rule → String
  | metaSchema => "missing `$schema` string"
  | rootType => "root `type` must be \"object\""
  | type =>
    match Members.get? node "$ref", Members.get? node "type" with
    | some _, _ => "`$ref` must be a string"
    | none, some (.string t) => "unknown type `" ++ t ++ "`"
    | none, some _ => "`type` must be a string"
    | none, none => "property needs `type` or `$ref`"
  | required => "`required` must be a boolean"
  | minimum => "`minimum` must be a number"
  | maximum => "`maximum` must be a number"
  | minLength => "`minLength` must be a non-negative integer"
  | maxLength => "`maxLength` must be a non-negative integer"
  | pattern =>
    match (Members.get? node "pattern").bind Value.asString? with
    | some p => "`pattern` does not compile: " ++ (rejection p).getD ""
    | none => "`pattern` must be a string"
  | choices => "`enum` must be a non-empty array"
  | properties => "`properties` must be an object"

/-- Tests whether a node keeps a rule. -/
def test : Rule → Bool
  | metaSchema => role != .root || ((Members.get? node "$schema").bind Value.asString?).isSome
  | rootType => role != .root || (Members.get? node "type").bind Value.asString? == some "object"
  | type =>
    match Members.get? node "$ref" with
    | some reference => reference.asString?.isSome
    | none =>
      match Members.get? node "type" with
      | some t => (t.asString?.bind Kind.ofName?).isSome
      | none => role == .root
  | required => (Members.get? node "required").all Value.isBool
  | minimum => (Members.get? node "minimum").all Value.isNumber
  | maximum => (Members.get? node "maximum").all Value.isNumber
  | minLength => (Members.get? node "minLength").all Value.isNatural
  | maxLength => (Members.get? node "maxLength").all Value.isNatural
  | pattern => (Members.get? node "pattern").all fun v => v.asString?.any fun p => (rejection p).isNone
  | choices => (Members.get? node "enum").all fun v => (v.asArray?.map (!·.isEmpty)).getD false
  | properties => (Members.get? node "properties").all fun v => v.asObject?.isSome

end

/-! ## Tests -/

theorem asString?_eq_some {v : Value} {s : String} : v.asString? = some s ↔ v = .string s := by
  cases v <;> simp [Value.asString?]

theorem isBool_iff {v : Value} : v.isBool = true ↔ ∃ b, v = .bool b := by
  cases v <;> simp [Value.isBool]

theorem isNumber_iff {v : Value} : v.isNumber = true ↔ ∃ n, v = .number n := by
  cases v <;> simp [Value.isNumber]

theorem isNatural_iff {v : Value} : v.isNatural = true ↔ ∃ n : Nat, v = .number (.integer n) := by
  constructor
  · intro h
    unfold Value.isNatural at h
    split at h
    · rename_i i
      obtain ⟨n, rfl⟩ := Int.eq_ofNat_of_zero_le (of_decide_eq_true h)
      exact ⟨n, rfl⟩
    · cases h
  · rintro ⟨n, rfl⟩
    exact decide_eq_true (Int.natCast_nonneg n)

theorem isNonempty_iff {v : Value} :
    (v.asArray?.map (!·.isEmpty)).getD false = true ↔ ∃ x xs, v = .array (x :: xs) := by
  cases v with
  | array items => cases items <;> simp [Value.asArray?]
  | _ => simp [Value.asArray?]

theorem isObject_iff {v : Value} : v.asObject?.isSome = true ↔ ∃ ms, v = .object ms := by
  cases v <;> simp [Value.asObject?]

theorem all_iff {o : Option Value} {ok : Value → Bool} {P : Value → Prop}
    (h : ∀ v, ok v = true ↔ P v) : o.all ok = true ↔ ∀ v, o = some v → P v := by
  cases o <;> simp [h]

variable {rejection : String → Option String} {role : Role} {node : Members}

theorem test_pattern_iff : pattern.test rejection role node = true ↔
    pattern.Kept rejection role node := by
  refine all_iff fun v => ?_
  cases hv : v.asString? with
  | none =>
    simp only [Option.any_none, Bool.false_eq_true, false_iff]
    rintro ⟨p, rfl, -⟩
    cases hv
  | some p =>
    obtain rfl := asString?_eq_some.mp hv
    simp

theorem test_type_iff : type.test rejection role node = true ↔
    type.Kept rejection role node := by
  rw [test, Kept]
  cases Members.get? node "$ref" with
  | some reference => simp [Option.isSome_iff_exists, asString?_eq_some]
  | none =>
    cases Members.get? node "type" with
    | none => simp
    | some t =>
      simp [Option.isSome_iff_exists, Option.bind_eq_some_iff, asString?_eq_some,
        Kind.ofName?_eq_some]

/-- **The test of a rule tells whether a node keeps it.** -/
theorem test_iff (r : Rule) : r.test rejection role node = true ↔ r.Kept rejection role node := by
  cases r with
  | metaSchema =>
    simp [test, Kept, Option.isSome_iff_exists, Option.bind_eq_some_iff, asString?_eq_some,
      imp_iff_not_or]
  | rootType =>
    simp [test, Kept, Option.bind_eq_some_iff, asString?_eq_some, imp_iff_not_or]
  | type => exact test_type_iff
  | required => exact all_iff fun _ => isBool_iff
  | minimum => exact all_iff fun _ => isNumber_iff
  | maximum => exact all_iff fun _ => isNumber_iff
  | minLength => exact all_iff fun _ => isNatural_iff
  | maxLength => exact all_iff fun _ => isNatural_iff
  | pattern => exact test_pattern_iff
  | choices => exact all_iff fun _ => isNonempty_iff
  | properties => exact all_iff fun _ => isObject_iff

instance (r : Rule) : Decidable (r.Kept rejection role node) := decidable_of_iff _ r.test_iff

end Rule

/-! ## What a check reports of one node -/

section

variable (rejection : String → Option String) (role : Role) (node : Members)

/-- What is said of those among some rules that a node breaks. -/
def complaints (rules : List Rule) : List String :=
  (rules.filter fun r => ¬ r.Kept rejection role node).map (Rule.message rejection node)

end

variable {rejection : String → Option String} {role : Role} {node : Members}

@[simp] theorem complaints_nil : complaints rejection role node [] = [] := rfl

theorem complaints_cons (r : Rule) (rules : List Rule) :
    complaints rejection role node (r :: rules) =
      (if r.test rejection role node then [] else [r.message rejection node]) ++
        complaints rejection role node rules := by
  by_cases h : r.Kept rejection role node
  · simp [complaints, r.test_iff.mpr h, h]
  · simp [complaints, mt r.test_iff.mp h, h]

theorem complaints_append (rules rules' : List Rule) :
    complaints rejection role node (rules ++ rules') =
      complaints rejection role node rules ++ complaints rejection role node rules' := by
  rw [complaints, List.filter_append, List.map_append]
  rfl

theorem ruleOn_eq (key : String) (ok : Value → Bool) (message : String) :
    ruleOn node key ok message = if (Members.get? node key).all ok then [] else [message] := by
  rw [ruleOn]
  cases Members.get? node key <;> rfl

theorem typeRule_eq : typeRule (role == .root) node =
    if Rule.type.test rejection role node then [] else [Rule.type.message rejection node] := by
  rw [typeRule, Rule.test, Rule.message]
  cases Members.get? node "$ref" with
  | some reference => rfl
  | none =>
    cases Members.get? node "type" with
    | none => rfl
    | some t => cases t <;> rfl

theorem patternRule_eq : patternRule rejection node =
    if Rule.pattern.test rejection role node then [] else [Rule.pattern.message rejection node] := by
  rw [patternRule, Rule.test, Rule.message]
  cases Members.get? node "pattern" with
  | none => rfl
  | some v =>
    cases v with
    | string p => cases hp : rejection p <;> simp [Value.asString?, hp]
    | _ => rfl

/-- **A check reports the rules of roots that the root breaks.** -/
theorem rootRules_eq : rootRules node = complaints rejection .root node Rule.atRoot := by
  simp only [Rule.atRoot, complaints_cons, complaints_nil, List.append_nil, rootRules, Rule.test,
    Rule.message, bne_self_eq_false, Bool.false_or, beq_iff_eq]

theorem complaints_atRoot (h : role ≠ .root) :
    complaints rejection role node Rule.atRoot = [] := by
  simp [Rule.atRoot, complaints_cons, Rule.test, h]

/-- **A check reports the rules on its own members that a node breaks.** -/
theorem ownRules_eq : ownRules rejection (role == .root) node =
    complaints rejection role node Rule.own := by
  rw [ownRules, typeRule_eq, patternRule_eq]
  simp only [ruleOn_eq, Rule.own, complaints_cons, complaints_nil, List.append_nil,
    List.append_assoc]
  rfl

end SchemaTree.Check
