import StatusBar.Document.Basic

/-!
# What is read from a node

A text, a truth value, an integer or a list of texts is read from a node without a look
inside objects.  Nodes that read alike give the same to all of these readers.  What a reader
gives tells what the node is.
-/

namespace StatusBar.Document

/-- Nodes that are the same but for what is inside objects, and for those items of an array
that are no texts. -/
inductive ReadsAs : Document → Document → Prop where
  | refl (node : Document) : ReadsAs node node
  | array {items items' : List Document}
    (texts : items.filterMap text? = items'.filterMap text?) :
    ReadsAs (.array items) (.array items')
  | object (members members' : Members) : ReadsAs (.object members) (.object members')

namespace ReadsAs

variable {node node' : Document} (h : node.ReadsAs node')

include h

theorem isObject_eq :
  node.isObject = node'.isObject
  := by
  cases h <;> rfl

theorem text?_eq :
  node.text? = node'.text?
  := by
  cases h <;> rfl

theorem nonEmptyText?_eq :
  node.nonEmptyText? = node'.nonEmptyText?
  := by
  rw [nonEmptyText?, nonEmptyText?, h.text?_eq]

theorem bool?_eq :
  node.bool? = node'.bool?
  := by
  cases h <;> rfl

theorem integerWithin?_eq (low high : Int) :
  node.integerWithin? low high = node'.integerWithin? low high
  := by
  cases h <;> rfl

theorem int32?_eq :
  node.int32? = node'.int32?
  := by
  rw [int32?, int32?, h.integerWithin?_eq]

theorem uint32?_eq :
  node.uint32? = node'.uint32?
  := by
  rw [uint32?, uint32?, h.integerWithin?_eq]

theorem texts_eq :
  node.texts = node'.texts
  := by
  cases h with
  | refl => rfl
  | array texts => exact texts
  | object => rfl

end ReadsAs

/-! ### What nodes are read -/

/-- A member that reads as something else than null is there. -/
theorem get_eq_iff {node value : Document} {key : String} (hvalue : value ≠ .null) :
  node.get key = value ↔ node.get? key = some value
  := by
  rw [get]
  cases node.get? key with
  | none => simp [hvalue.symm]
  | some value' => simp

/-- Only objects have members. -/
theorem get?_eq_some_iff {node value : Document} {key : String} :
  node.get? key = some value ↔ ∃ members, node = .object members ∧ members.lookup key = some value
  := by
  cases node with
  | object members => simp [get?]
  | _ => simp [get?]

theorem text?_eq_some_iff {node : Document} {text : String} :
  node.text? = some text ↔ node = .string text
  := by
  cases node with
  | string value => simp [text?]
  | _ => simp [text?]

theorem bool?_eq_some_iff {node : Document} {value : Bool} :
  node.bool? = some value ↔ node = .bool value
  := by
  cases node with
  | bool value' => simp [bool?]
  | _ => simp [bool?]

/-- Texts are the strings of an array. -/
theorem mem_texts_iff {node : Document} {text : String} :
  text ∈ node.texts ↔ ∃ items, node = .array items ∧ .string text ∈ items
  := by
  simp only [texts, List.mem_filterMap, text?_eq_some_iff, exists_eq_right]
  cases node with
  | array values => simp [items]
  | _ => simp [items]

end StatusBar.Document
