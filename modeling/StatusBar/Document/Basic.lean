/-!
# Documents

A document is what a configuration text holds: a tree of values whose objects keep their
members in order.  A member that is not there reads as `null`, and so does any member of a
value that is not an object.

`Members.insert` keeps the place of a member it replaces and appends a new one;
`Members.swapRemove` fills the gap with the last member.
-/

namespace StatusBar

/-- A number: an integer between `-2 ^ 63` and `2 ^ 64 - 1`, or a float given by its
IEEE 754 bits. -/
inductive Number where
  | integer (value : Int)
  | float (bits : UInt64)
  deriving DecidableEq, Repr, Inhabited

/-- A document or a part of one. -/
inductive Document where
  | null
  | bool (value : Bool)
  | number (value : Number)
  | string (value : String)
  | array (items : List Document)
  | object (members : List (String × Document))
  deriving Repr, BEq, Inhabited

/-- The members of an object, in order. -/
abbrev Members := List (String × Document)

namespace Members

/-- Give the member `key` this value: in its place if it is there, else at the end. -/
def insert (key : String) (value : Document) : Members → Members
  | [] => [(key, value)]
  | (k, v) :: rest => if k = key then (k, value) :: rest else (k, v) :: insert key value rest

/-- Change the value of the member `key`, if there is one. -/
def modify (key : String) (f : Document → Document) : Members → Members
  | [] => []
  | (k, v) :: rest => if k = key then (k, f v) :: rest else (k, v) :: modify key f rest

/-- Take the member `key` out; the last member moves into its place. -/
def swapRemove (key : String) : Members → Members
  | [] => []
  | (k, v) :: rest =>
    if k = key then
      match rest.getLast? with
      | none => []
      | some last => last :: rest.dropLast
    else
      (k, v) :: swapRemove key rest

/-- Append those members of `added` whose names are not there yet. -/
def addMissing (members added : Members) : Members :=
  added.foldl
    (fun members member => if (members.lookup member.1).isSome then members else members ++ [member])
    members

end Members

namespace Document

/-- The member `key` of an object. -/
def get? (doc : Document) (key : String) : Option Document :=
  match doc with
  | .object members => members.lookup key
  | _ => none

/-- The member `key`, null when there is none. -/
def get (doc : Document) (key : String) : Document :=
  (doc.get? key).getD .null

/-- The text of a string. -/
def text? : Document → Option String
  | .string value => some value
  | _ => none

/-- The text of a string that is not empty. -/
def nonEmptyText? (doc : Document) : Option String :=
  doc.text?.filter (· != "")

/-- The value of a boolean. -/
def bool? : Document → Option Bool
  | .bool value => some value
  | _ => none

/-- The value of an integer that lies between `low` and `high`. -/
def integerWithin? (low high : Int) : Document → Option Int
  | .number (.integer value) => if low ≤ value ∧ value ≤ high then some value else none
  | _ => none

/-- The value of an integer of 32 bits with a sign. -/
def int32? (doc : Document) : Option Int32 :=
  (doc.integerWithin? Int32.minValue.toInt Int32.maxValue.toInt).map Int32.ofInt

/-- The value of an integer of 64 bits with a sign. -/
def int64? (doc : Document) : Option Int64 :=
  (doc.integerWithin? Int64.minValue.toInt Int64.maxValue.toInt).map Int64.ofInt

/-- The value of an integer of 32 bits without a sign. -/
def uint32? (doc : Document) : Option UInt32 :=
  (doc.integerWithin? 0 (UInt32.size - 1)).map fun value => UInt32.ofNat value.toNat

/-- The value of an integer of 64 bits without a sign. -/
def uint64? (doc : Document) : Option UInt64 :=
  (doc.integerWithin? 0 (UInt64.size - 1)).map fun value => UInt64.ofNat value.toNat

/-- The items of an array, none for any other value. -/
def items : Document → List Document
  | .array items => items
  | _ => []

/-- The strings among the items of an array, in order. -/
def texts (doc : Document) : List String :=
  doc.items.filterMap text?

/-- Whether this is an object. -/
def isObject : Document → Bool
  | .object _ => true
  | _ => false

end Document

end StatusBar
