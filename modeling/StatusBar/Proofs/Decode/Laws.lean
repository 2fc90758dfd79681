import StatusBar.Group
import StatusBar.Proofs.Config.Settings
import StatusBar.Proofs.Mode.Presets

/-!
# Laws of decoding

A `Shape` names a type whose values documents update: a scalar, a name, a document, a record
of a bar, or an option, a list or a table of such values, nested to any depth.  To read a
document twice is to read it once, whatever the value was before.  A document that is not of
the kind that a type reads leaves the value as it is, unless the value is a bar's settings:
their mode table always comes from the document that is read last.
-/

namespace StatusBar

/-- A type whose values documents update. -/
inductive Shape where
  | bool
  | int32
  | int64
  | uint32
  | uint64
  | float
  | text
  | layer
  | position
  | groupOrientation
  | modifierReset
  | document
  | mode
  | margins
  | settings
  | option (item : Shape)
  | list (item : Shape)
  | table (item : Shape)

namespace Shape

/-- The values of a shape. -/
def Value : Shape → Type
  | bool => Bool
  | int32 => Int32
  | int64 => Int64
  | uint32 => UInt32
  | uint64 => UInt64
  | float => Float
  | text => String
  | layer => Layer
  | position => Position
  | groupOrientation => GroupOrientation
  | modifierReset => ModifierReset
  | document => Document
  | mode => Mode
  | margins => Margins
  | settings => Settings
  | option item => Option item.Value
  | list item => List item.Value
  | table item => Table item.Value

/-- The decoding of a shape's values is that of the type itself. -/
instance instDecode : (shape : Shape) → Decode shape.Value
  | bool => (inferInstance : Decode Bool)
  | int32 => (inferInstance : Decode Int32)
  | int64 => (inferInstance : Decode Int64)
  | uint32 => (inferInstance : Decode UInt32)
  | uint64 => (inferInstance : Decode UInt64)
  | float => (inferInstance : Decode Float)
  | text => (inferInstance : Decode String)
  | layer => (inferInstance : Decode Layer)
  | position => (inferInstance : Decode Position)
  | groupOrientation => (inferInstance : Decode GroupOrientation)
  | modifierReset => (inferInstance : Decode ModifierReset)
  | document => (inferInstance : Decode Document)
  | mode => (inferInstance : Decode Mode)
  | margins => (inferInstance : Decode Margins)
  | settings => (inferInstance : Decode Settings)
  | option item =>
    have := instDecode item
    (inferInstance : Decode (Option item.Value))
  | list item =>
    have := instDecode item
    (inferInstance : Decode (List item.Value))
  | table item =>
    have := instDecode item
    (inferInstance : Decode (Table item.Value))

end Shape

/-! ### Reading twice -/

namespace Decode

variable {α : Type} {doc : Document}

/-- What a node gives does not depend on the value so far. -/
theorem getD_getD (value? : Option α) (old : α) :
  value?.getD (value?.getD old) = value?.getD old
  := by
  cases value? <;> rfl

theorem or_or (value? old? : Option α) :
  value?.or (value?.or old?) = value?.or old?
  := by
  rw [← Option.or_assoc, Option.or_self]

variable [Decode α]

theorem option_update_update (doc : Document) (old : Option α) :
  update doc (update doc old) = update doc old
  := by
  cases doc <;> rfl

theorem list_update_update (doc : Document) (old : List α) :
  update doc (update doc old) = update doc old
  := by
  cases doc <;> rfl

/-- A table takes an object in twice as it does once, if its values do. -/
theorem table_update_update (hdoc : doc.Regular)
    (hvalue : ∀ value : Document, value.Regular → ∀ old : α,
      update value (update value old) = update value old)
    (old : Table α) :
  update doc (update doc old) = update doc old
  := by
  cases doc with
  | object members =>
    obtain _ | _ | _ | _ | _ | ⟨distinct, regular⟩ := hdoc
    apply Table.ext
    intro name
    rw [Table.get?_update distinct, Table.get?_update distinct]
    cases hname : members.lookup name with
    | none => rfl
    | some value =>
      have hmember := regular (name, value) ((distinct.lookup_eq_some_iff name value).mp hname)
      simp only [Option.map_some, Option.some_or, Option.getD_some]
      rw [hvalue value hmember]
  | _ => rfl

end Decode

theorem Mode.update_update (doc : Document) (mode : Mode) :
  update doc (update doc mode) = update doc mode
  := by
  cases doc with
  | object members =>
    simp only [update, Document.isObject, if_true, Decode.update, Decode.or_or,
      Decode.getD_getD]
  | _ => rfl

theorem Margins.update_update (doc : Document) (margins : Margins) :
  update doc (update doc margins) = update doc margins
  := by
  simp only [update]
  cases ofDocument doc with
  | error => rfl
  | ok margins? => apply Decode.getD_getD

theorem Settings.update_update (doc : Document) (settings : Settings) :
  update doc (update doc settings) = update doc settings
  := by
  simp only [update, Margins.update_update, Decode.update, Decode.or_or, Decode.getD_getD]

namespace Shape

/-- Reading the same document again changes nothing, whatever the value was before the first
time. -/
theorem update_idempotent (shape : Shape) {doc : Document} (hdoc : doc.Regular)
    (old : shape.Value) :
  Decode.update doc (Decode.update doc old) = Decode.update doc old
  := by
  induction shape generalizing doc with
  | bool | int32 | int64 | uint32 | uint64 | float | text | layer | position
  | groupOrientation | modifierReset => apply Decode.getD_getD
  | document => rfl
  | mode => apply Mode.update_update
  | margins => apply Margins.update_update
  | settings => apply Settings.update_update
  | option item => apply Decode.option_update_update (α := item.Value)
  | list item => apply Decode.list_update_update (α := item.Value)
  | table item ih =>
    apply Decode.table_update_update (α := item.Value) hdoc
    intro value hvalue old
    apply ih hvalue

/-- Names with modes that may be withdrawn. -/
def optionalModes : Shape := .table (.option .mode)

/-- A document that withdraws one mode and describes another. -/
def swappedModes : Document :=
  .object [("day", .null), ("night", .object [("layer", .string "low")])]

theorem regular_swappedModes :
  swappedModes.Regular
  := by
  apply Document.Regular.object (by decide)
  intro member hmember
  obtain rfl | rfl : member = ("day", .null) ∨ member = ("night", .object [("layer", .string "low")])
    := by simpa using hmember
  · exact .null
  · exact .object (by decide) (by simpa using .string "low")

/-- Withdrawn modes stay withdrawn, and described ones stay as they are. -/
theorem update_idempotent_swappedModes :
  swappedModes.Regular
    ∧ ∀ old : Table (Option Mode),
      (Decode.update swappedModes old).get? "day" = some none
      ∧ (Decode.update swappedModes old).get? "night" = some (some { layer := some .bottom })
      ∧ Decode.update swappedModes (Decode.update swappedModes old)
        = Decode.update swappedModes old
  := by
  use regular_swappedModes
  intro old
  constructor
  · rw [swappedModes, Table.get?_update (by decide)]
    rfl
  constructor
  · rw [swappedModes, Table.get?_update (by decide)]
    rfl
  · exact update_idempotent optionalModes regular_swappedModes old

/-! ### Documents of another kind -/

/-- Whether a node is an integer between two bounds. -/
def IsIntegerWithin (low high : Int) (doc : Document) : Prop :=
  ∃ value, doc = .number (.integer value) ∧ low ≤ value ∧ value ≤ high

/-- Whether a node is the name of something. -/
def IsName {α : Type} (ofName? : String → Option α) (doc : Document) : Prop :=
  ∃ name value, doc = .string name ∧ ofName? name = some value

/-- The kind of documents that a shape reads.  An option and a document take anything. -/
def Reads : Shape → Document → Prop
  | bool, doc => ∃ value, doc = .bool value
  | int32, doc => IsIntegerWithin Int32.minValue.toInt Int32.maxValue.toInt doc
  | int64, doc => IsIntegerWithin Int64.minValue.toInt Int64.maxValue.toInt doc
  | uint32, doc => IsIntegerWithin 0 (UInt32.size - 1) doc
  | uint64, doc => IsIntegerWithin 0 (UInt64.size - 1) doc
  | float, doc => ∃ value, doc = .number value
  | text, doc => ∃ value, doc = .string value
  | layer, doc => IsName Layer.ofName? doc
  | position, doc => IsName Position.ofName? doc
  | groupOrientation, doc => IsName GroupOrientation.ofName? doc
  | modifierReset, doc => IsName ModifierReset.ofName? doc
  | list _, doc => ∃ items, doc = .array items
  | mode, doc | margins, doc | settings, doc | table _, doc => ∃ members, doc = .object members
  | document, _ | option _, _ => True

variable {doc : Document}

theorem integer?_of_not {α : Type} {low high : Int} (h : ¬ IsIntegerWithin low high doc)
    (convert : Int → α) :
  (doc.integerWithin? low high).map convert = none
  := by
  rw [Option.map_eq_none_iff, Option.eq_none_iff_forall_ne_some]
  intro value hvalue
  apply h
  unfold Document.integerWithin? at hvalue
  split at hvalue
  case h_1 value' =>
    split at hvalue
    case isTrue hrange => exact ⟨value', rfl, hrange⟩
    case isFalse => cases hvalue
  case h_2 => cases hvalue

theorem name?_of_not {α : Type} {ofName? : String → Option α} (h : ¬ IsName ofName? doc) :
  doc.text?.bind ofName? = none
  := by
  rw [Option.eq_none_iff_forall_ne_some]
  intro value hvalue
  apply h
  cases doc with
  | string name => exact ⟨name, value, rfl, hvalue⟩
  | _ => cases hvalue

end Shape

/-- A node in which nothing is found changes nothing. -/
theorem Decode.update_ofRead_of_none {α : Type} {initial : α} {read? : Document → Option α}
    {doc : Document} (h : read? doc = none) (old : α) :
  (Decode.ofRead initial read?).update doc old = old
  := by
  change (read? doc).getD old = old
  rw [h]
  rfl

/-- Only an object describes a mode. -/
theorem Mode.update_of_not_object {doc : Document} (h : ¬ ∃ members, doc = .object members)
    (mode : Mode) :
  update doc mode = mode
  := by
  cases doc with
  | object members => cases h ⟨members, rfl⟩
  | _ => rfl

theorem Margins.update_of_not_object {doc : Document} (h : ¬ ∃ members, doc = .object members)
    (margins : Margins) :
  update doc margins = margins
  := by
  cases doc with
  | object members => cases h ⟨members, rfl⟩
  | _ => rfl

/-- What is no object says nothing about a bar, and its mode table is that of a document that
says nothing. -/
theorem Settings.update_of_not_object {doc : Document} (h : ¬ ∃ members, doc = .object members)
    (settings : Settings) :
  update doc settings = { settings with modes := .presets }
  := by
  rw [← ModeTable.resolve_null]
  cases doc with
  | object members => cases h ⟨members, rfl⟩
  | _ => rfl

namespace Shape

variable {doc : Document}

/-- What a shape does not read changes none of its values, except for settings. -/
theorem update_of_not_reads {shape : Shape} (h : ¬ shape.Reads doc) (hsettings : shape ≠ settings)
    (old : shape.Value) :
  Decode.update doc old = old
  := by
  cases shape with
  | bool =>
    cases doc with
    | bool value => cases h ⟨value, rfl⟩
    | _ => rfl
  | float =>
    cases doc with
    | number value => cases h ⟨value, rfl⟩
    | _ => rfl
  | text =>
    cases doc with
    | string value => cases h ⟨value, rfl⟩
    | _ => rfl
  | int32 | int64 | uint32 | uint64 =>
    exact Decode.update_ofRead_of_none (integer?_of_not h _) old
  | layer | position | groupOrientation | modifierReset =>
    exact Decode.update_ofRead_of_none (name?_of_not h) old
  | list item =>
    cases doc with
    | array items => cases h ⟨items, rfl⟩
    | _ => rfl
  | table item =>
    cases doc with
    | object members => cases h ⟨members, rfl⟩
    | _ => rfl
  | mode => apply Mode.update_of_not_object h
  | margins => apply Margins.update_of_not_object h
  | settings => cases hsettings rfl
  | document => cases h trivial
  | option item => cases h trivial

/-- A document of another kind than a shape reads leaves every value of the shape as it is,
unless the value is a bar's settings.  These are left as they are but for the mode table, which
is that of the presets again; so they are left as they are just if it was before. -/
theorem unread_untouched (doc : Document) :
  (∀ shape : Shape, ¬ shape.Reads doc → shape ≠ settings →
      ∀ old : shape.Value, Decode.update doc old = old)
    ∧ ∀ old : Settings, ¬ settings.Reads doc →
      Decode.update doc old = { old with modes := .presets }
      ∧ (Decode.update doc old = old ↔ old.modes = .presets)
  := by
  constructor
  · intro shape h hsettings old
    exact update_of_not_reads h hsettings old
  · intro old h
    have hupdate : Decode.update doc old = { old with modes := .presets } :=
      Settings.update_of_not_object h old
    use hupdate
    rw [hupdate, Settings.with_modes_eq_iff]
    exact eq_comm

/-- Settings whose document describes a mode of its own. -/
def nightSettings : Settings :=
  Decode.decode (.object [("name", .string "main"), ("modes", .object [("night", .object [])])])

theorem get?_night :
  nightSettings.modes.get? "night" = some {}
  := by
  have hname : "night" ≠ Mode.defaultName := by decide
  change (ModeTable.resolve _).get? "night" = _
  rw [ModeTable.resolve, Table.get?_modify, if_neg hname]
  change (Decode.update (.object [("night", .object [])]) ModeTable.presets).get? "night" = _
  rw [Table.get?_update (by decide)]
  rfl

/-- Null says nothing to a table of modes, which stays.  The settings stay but for the mode of
their own. -/
theorem unread_untouched_nightSettings :
  ¬ (table mode).Reads .null ∧ ¬ settings.Reads .null
    ∧ Decode.update .null nightSettings.modes = nightSettings.modes
    ∧ Decode.update .null nightSettings = { nightSettings with modes := .presets }
    ∧ nightSettings.modes ≠ .presets
  := by
  have htable : ¬ (table mode).Reads .null := by
    rintro ⟨members, ⟨⟩⟩
  have hsettings : ¬ settings.Reads .null := by
    rintro ⟨members, ⟨⟩⟩
  have hmodes : nightSettings.modes ≠ .presets := by
    intro h
    have hnight := get?_night
    rw [h] at hnight
    cases hnight
  obtain ⟨hothers, hlast⟩ := unread_untouched .null
  use htable, hsettings
  constructor
  · exact hothers (table mode) htable (by rintro ⟨⟩) nightSettings.modes
  constructor
  · exact (hlast nightSettings hsettings).1
  · exact hmodes

/-- Null is no object, and yet takes a mode out of the settings that a document described. -/
theorem settings_touched :
  ¬ settings.Reads .null ∧ nightSettings.modes.get? "night" = some {}
    ∧ (Decode.update .null nightSettings : Settings).modes.get? "night" = none
  := by
  constructor
  · rintro ⟨members, ⟨⟩⟩
  constructor
  · exact get?_night
  · rfl

end Shape

end StatusBar
