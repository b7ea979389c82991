/-!
# Kinds of values

The eight kinds of values that a schema can name.  `object` and `array` are the
two that may have a schema of their own inside; the other six are primitive.
-/

namespace SchemaTree

/-- A kind of value. -/
inductive Kind where
  | string
  | integer
  | number
  | boolean
  | object
  | array
  | null
  | any
  deriving DecidableEq, Repr, Inhabited

namespace Kind

def all : List Kind := [string, integer, number, boolean, object, array, null, any]

/-- The name of a kind in catalogs and schemas. -/
def name : Kind → String
  | string => "string"
  | integer => "integer"
  | number => "number"
  | boolean => "boolean"
  | object => "object"
  | array => "array"
  | null => "null"
  | any => "any"

/-- The name of a kind in log records. -/
def label : Kind → String
  | string => "String"
  | integer => "Integer"
  | number => "Number"
  | boolean => "Boolean"
  | object => "Object"
  | array => "Array"
  | null => "Null"
  | any => "Any"

/-- The kind with a name. -/
def ofName? (s : String) : Option Kind := all.find? (·.name = s)

/-- Whether values of a kind cannot have a schema inside. -/
def isPrimitive : Kind → Bool
  | object => false
  | array => false
  | _ => true

theorem ofName?_name (k : Kind) : ofName? k.name = some k := by
  cases k <;> decide

theorem ofName?_eq_some {s : String} {k : Kind} : ofName? s = some k ↔ s = k.name := by
  constructor
  · intro h
    have hk := List.find?_some h
    exact (of_decide_eq_true hk).symm
  · rintro rfl
    exact ofName?_name k

theorem ofName?_eq_none {s : String} : ofName? s = none ↔ ∀ k : Kind, s ≠ k.name := by
  simp only [Option.eq_none_iff_forall_ne_some, ne_eq, ofName?_eq_some]

end Kind

end SchemaTree
