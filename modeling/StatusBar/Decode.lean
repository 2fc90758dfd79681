import StatusBar.Document.Basic
import StatusBar.Table

/-!
# Decoding in place

A value is not built from a document but updated by it, so that a default, or what an
earlier document said, survives wherever the document's node has the wrong shape.  There
are no errors: such a node changes nothing.

A list is replaced as a whole and a table is merged name by name; an option is cleared by
null and filled afresh by anything else.
-/

namespace StatusBar

/-- Types whose values a document updates. -/
class Decode (α : Type) where
  /-- The value before any document is read. -/
  initial : α
  /-- The value after a document is read. -/
  update : Document → α → α

namespace Decode

/-- The value that a document gives on its own. -/
def decode {α : Type} [Decode α] (doc : Document) : α :=
  update doc initial

/-- Decoding that either finds a value in a node or changes nothing. -/
@[reducible]
def ofRead {α : Type} (initial : α) (read? : Document → Option α) : Decode α where
  initial := initial
  update := fun doc old => (read? doc).getD old

/-- The float that a number stands for. -/
def floatOfNumber : Number → Float
  | .integer value =>
    if value < 0 then (Int64.ofInt value).toFloat else (UInt64.ofNat value.toNat).toFloat
  | .float bits => Float.ofBits bits

/-- The value of a number as a float. -/
def float? : Document → Option Float
  | .number value => some (floatOfNumber value)
  | _ => none

instance : Decode Bool := ofRead false Document.bool?

instance : Decode Int32 := ofRead 0 Document.int32?

instance : Decode Int64 := ofRead 0 Document.int64?

instance : Decode UInt32 := ofRead 0 Document.uint32?

instance : Decode UInt64 := ofRead 0 Document.uint64?

instance : Decode Float := ofRead 0.0 float?

instance : Decode String := ofRead "" Document.text?

/-- A document is taken as it is. -/
instance : Decode Document where
  initial := .null
  update := fun doc _ => doc

/-- Null clears an option; anything else fills it afresh. -/
instance {α : Type} [Decode α] : Decode (Option α) where
  initial := none
  update := fun doc _ =>
    match doc with
    | .null => none
    | doc => some (decode doc)

/-- An array replaces a list, item by item. -/
instance {α : Type} [Decode α] : Decode (List α) where
  initial := []
  update := fun doc old =>
    match doc with
    | .array items => items.map decode
    | _ => old

/-- An object updates the entries that its members name, new ones from the initial value. -/
instance {α : Type} [Decode α] : Decode (Table α) where
  initial := .empty
  update := fun doc old =>
    match doc with
    | .object members =>
      members.foldl
        (fun table member =>
          table.modify member.1 fun value? => update member.2 (value?.getD initial))
        old
    | _ => old

end Decode

end StatusBar
