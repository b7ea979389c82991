import SchemaTree.Json.Fault
import SchemaTree.Json.Value

/-!
# Readings

A `Reading` is what a decoder gets to see of a JSON document: its tree as far as
the document can be read, with the places of its parts, and with a fault where
reading had to stop.  Members are kept as they were written, a repeated key
included.  Since a decoder goes through a reading from left to right and stops
at the first thing it cannot take, **it reports whichever comes first, a fault of
the syntax or a value of the wrong kind**.

A value in memory has a reading too (`Reading.ofValue`): one without faults and
without places.
-/

namespace SchemaTree.Json

/-- A place, which values in memory do not have. -/
abbrev Mark := Option Place

/-- How a value that cannot be read begins. -/
inductive Lead where
  | null
  | bool
  | number
  | string
  | array
  | object
  | stray
  deriving DecidableEq, Repr

/-- A value without parts. -/
inductive Scalar where
  | null
  | bool (b : Bool)
  | number (n : Number)
  | string (s : String)
  deriving Repr

/-- A key as it was written: the place behind it, and the place where the search for its colon
begins, or behind a brace that is found there instead. -/
structure Key where
  name : String
  stop : Mark
  mark : Mark
  deriving Repr

mutual

/-- A document as far as it can be read. -/
inductive Reading where
  | scalar (value : Scalar) (start stop : Mark)
  | array (start : Mark) (items : Items)
  | object (start : Mark) (entries : Entries)
  | broken (lead : Lead) (start : Place) (fault : Fault)

/-- The items of an array, up to its bracket or to where no further item can be found. -/
inductive Items where
  | close (stop : Mark)
  | broken (fault : Fault)
  | item (head : Reading) (tail : Items)

/-- The entries of an object, up to its brace or to where no further key can be found; `behind` is
the place behind a value and the blanks after it. -/
inductive Entries where
  | close (stop : Mark)
  | broken (fault : Fault)
  | keyOnly (key : Key) (fault : Fault)
  | entry (key : Key) (value : Reading) (behind : Mark) (tail : Entries)

end

instance : Inhabited Reading := ⟨.scalar .null none none⟩

def Scalar.toValue : Scalar → Value
  | null => .null
  | bool b => .bool b
  | number n => .number n
  | string s => .string s

/-! ## Readings of values -/

mutual

/-- The reading of a value in memory. -/
def Reading.ofValue : Value → Reading
  | .null => .scalar .null none none
  | .bool b => .scalar (.bool b) none none
  | .number n => .scalar (.number n) none none
  | .string s => .scalar (.string s) none none
  | .array items => .array none (Items.ofValues items)
  | .object members => .object none (Entries.ofMembers members)

def Items.ofValues : List Value → Items
  | [] => .close none
  | v :: vs => .item (Reading.ofValue v) (Items.ofValues vs)

def Entries.ofMembers : Members → Entries
  | [] => .close none
  | (k, v) :: ms => .entry ⟨k, none, none⟩ (Reading.ofValue v) none (Entries.ofMembers ms)

end

mutual

/-- The same reading as of a value in memory. -/
def Reading.unplaced : Reading → Reading
  | .scalar v _ _ => .scalar v none none
  | .array _ items => .array none items.unplaced
  | .object _ entries => .object none entries.unplaced
  | .broken lead start fault => .broken lead start fault

def Items.unplaced : Items → Items
  | .close _ => .close none
  | .broken fault => .broken fault
  | .item head tail => .item head.unplaced tail.unplaced

def Entries.unplaced : Entries → Entries
  | .close _ => .close none
  | .broken fault => .broken fault
  | .keyOnly key fault => .keyOnly ⟨key.name, none, none⟩ fault
  | .entry key value _ tail => .entry ⟨key.name, none, none⟩ value.unplaced none tail.unplaced

end

/-! ## Parts -/

/-- Where a reading starts. -/
def Reading.start : Reading → Mark
  | .scalar _ start _ => start
  | .array start _ => start
  | .object start _ => start
  | .broken _ start _ => some start

/-- The number of items that can be seen. -/
def Items.count : Items → Nat
  | .close _ => 0
  | .broken _ => 0
  | .item _ tail => tail.count + 1

end SchemaTree.Json
