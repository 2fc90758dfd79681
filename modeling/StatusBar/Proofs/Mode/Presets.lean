import StatusBar.Config

/-!
# Presets in mode tables

Whatever a document says, its mode table keeps every mode that the presets have.
`Settings.Resolved` holds of settings whose table comes from a document, as that of the
initial settings, of updated ones, and of every configuration does.
-/

namespace StatusBar

namespace Table

variable {α : Type}

/-- An update adds its name to the names that have a value. -/
theorem contains_modify (table : Table α) (key : String) (f : Option α → α) (name : String) :
  (table.modify key f).contains name = (decide (name = key) || table.contains name)
  := by
  rw [contains, get?_modify, contains]
  by_cases h : name = key
  · simp [h]
  · simp [h]

/-- A table that a document updates keeps its names. -/
theorem contains_update [Decode α] {table : Table α} {name : String} (doc : Document)
    (h : table.contains name) :
  (Decode.update doc table).contains name
  := by
  cases doc with
  | object members =>
    simp only [Decode.update]
    induction members generalizing table with
    | nil => exact h
    | cons member members ih =>
      apply ih
      rw [contains_modify, h, Bool.or_true]
  | _ => exact h

end Table

/-- The mode table of a document has every preset. -/
theorem ModeTable.contains_resolve {name : String} (doc : Document)
    (h : presets.contains name) :
  (resolve doc).contains name
  := by
  rw [resolve, Table.contains_modify, Table.contains_update _ h, Bool.or_true]

/-- A document without members of its own resolves to the presets. -/
theorem ModeTable.resolve_null :
  resolve .null = presets
  := by
  apply Table.ext
  intro name
  rw [resolve, Table.get?_modify]
  by_cases h : name = Mode.defaultName
  · rw [if_pos h, h]
    rfl
  · rw [if_neg h]
    rfl

namespace Settings

/-- The mode table is that of a document. -/
def Resolved (settings : Settings) : Prop :=
  ∃ doc, settings.modes = ModeTable.resolve doc

theorem resolved_initial :
  initial.Resolved
  := ⟨.null, ModeTable.resolve_null.symm⟩

theorem resolved_update (doc : Document) (settings : Settings) :
  (update doc settings).Resolved
  := ⟨doc, rfl⟩

theorem resolved_ofDocument (doc : Document) :
  (Config.ofDocument doc).settings.Resolved
  := resolved_update _ _

variable {settings : Settings}

theorem Resolved.contains_preset (h : settings.Resolved) {name : String}
    (hname : ModeTable.presets.contains name) :
  settings.modes.contains name
  := by
  obtain ⟨doc, hdoc⟩ := h
  rw [hdoc]
  apply ModeTable.contains_resolve doc hname

/-- A bar can always be hidden. -/
theorem Resolved.contains_invisible (h : settings.Resolved) :
  settings.modes.contains Mode.invisibleName
  := h.contains_preset (by decide)

theorem Resolved.contains_hide (h : settings.Resolved) :
  settings.modes.contains Mode.hideName
  := h.contains_preset (by decide)

end Settings

end StatusBar
