import SchemaTree.Json.Number

/-!
# JSON values

Objects keep their members in the order of insertion.  Inserting a key that is
there keeps its place and takes the new value (`Members.insert`), which is how a
repeated key of a text and an overlaid key of a schema are both treated.

* `Value.same`: equality in which the order of members does not matter and
  numbers are compared as numbers.
* `Value.identical`: equality as it is, which is decidable.
-/

namespace SchemaTree.Json

/-- A JSON value. -/
inductive Value where
  | null
  | bool (b : Bool)
  | number (n : Number)
  | string (s : String)
  | array (items : List Value)
  | object (members : List (String × Value))
  deriving Repr, Inhabited

/-- The members of an object. -/
abbrev Members := List (String × Value)

namespace Members

/-- Sets a key: in its place if it is there, else at the end. -/
def insert {α : Type} (key : String) (value : α) : List (String × α) → List (String × α)
  | [] => [(key, value)]
  | (k, v) :: rest => if k = key then (key, value) :: rest else (k, v) :: insert key value rest

/-- The members that a list of pairs leaves when inserted one after the other. -/
def ofList {α : Type} (pairs : List (String × α)) : List (String × α) :=
  pairs.foldl (fun members (k, v) => insert k v members) []

/-- The value of a key. -/
def get? {α : Type} (members : List (String × α)) (key : String) : Option α :=
  (members.find? (·.1 = key)).map (·.2)

end Members

namespace Value

/-- A double as a value; what is no number is `null`. -/
def ofDouble (d : Double) : Value := if d.isFinite then number (.double d) else null

def ofNat (n : Nat) : Value := number (.integer n)

/-- A double as a value, as an integer where it is one. -/
def ofBound (d : Double) : Value :=
  match Number.preferInteger d with
  | .integer i => number (.integer i)
  | .double d => ofDouble d

def asObject? : Value → Option Members
  | object members => some members
  | _ => none

def asArray? : Value → Option (List Value)
  | array items => some items
  | _ => none

def asString? : Value → Option String
  | string s => some s
  | _ => none

def isNumber : Value → Bool
  | number _ => true
  | _ => false

def isBool : Value → Bool
  | bool _ => true
  | _ => false

/-- Whether a value is an integer from 0 on. -/
def isNatural : Value → Bool
  | number (.integer i) => 0 ≤ i
  | _ => false

/-! ## Equality -/

mutual

/-- Equality of values; the order of the members of an object does not matter. -/
def same : Value → Value → Bool
  | null, null => true
  | bool a, bool b => a == b
  | number a, number b => a.same b
  | string a, string b => a == b
  | array xs, array ys => sameItems xs ys
  | object ms, object ns => ms.length == ns.length && sameMembers ms ns
  | _, _ => false

def sameItems : List Value → List Value → Bool
  | [], [] => true
  | x :: xs, y :: ys => same x y && sameItems xs ys
  | _, _ => false

/-- Whether every member on the left has an equal one on the right. -/
def sameMembers : Members → Members → Bool
  | [], _ => true
  | (k, v) :: ms, ns =>
    (match Members.get? ns k with
      | some w => same v w
      | none => false) && sameMembers ms ns

end

mutual

/-- Equality of values as they are written, with the members of an object in order. -/
def identical : Value → Value → Bool
  | null, null => true
  | bool a, bool b => a = b
  | number a, number b => a = b
  | string a, string b => a = b
  | array xs, array ys => identicalItems xs ys
  | object ms, object ns => identicalMembers ms ns
  | _, _ => false

def identicalItems : List Value → List Value → Bool
  | [], [] => true
  | x :: xs, y :: ys => identical x y && identicalItems xs ys
  | _, _ => false

def identicalMembers : Members → Members → Bool
  | [], [] => true
  | (k, v) :: ms, (l, w) :: ns => k = l && identical v w && identicalMembers ms ns
  | _, _ => false

end

mutual

theorem identical_iff : ∀ v w : Value, identical v w = true ↔ v = w
  | null, w => by cases w <;> simp [identical]
  | bool _, w => by cases w <;> simp [identical]
  | number _, w => by cases w <;> simp [identical]
  | string _, w => by cases w <;> simp [identical]
  | array xs, w => by
    cases w with
    | array ys => rw [identical, identicalItems_iff, array.injEq]
    | _ => simp [identical]
  | object ms, w => by
    cases w with
    | object ns => rw [identical, identicalMembers_iff, object.injEq]
    | _ => simp [identical]

theorem identicalItems_iff : ∀ xs ys : List Value, identicalItems xs ys = true ↔ xs = ys
  | [], [] => by simp [identicalItems]
  | [], _ :: _ => by simp [identicalItems]
  | _ :: _, [] => by simp [identicalItems]
  | x :: xs, y :: ys => by
    rw [identicalItems, Bool.and_eq_true, identical_iff x y, identicalItems_iff xs ys,
      List.cons.injEq]

theorem identicalMembers_iff : ∀ ms ns : Members, identicalMembers ms ns = true ↔ ms = ns
  | [], [] => by simp [identicalMembers]
  | [], _ :: _ => by simp [identicalMembers]
  | _ :: _, [] => by simp [identicalMembers]
  | (_, v) :: ms, (_, w) :: ns => by
    simp [identicalMembers, identical_iff v w, identicalMembers_iff ms ns]

end

instance : DecidableEq Value := fun v w => decidable_of_iff _ (identical_iff v w)

end Value

end SchemaTree.Json
