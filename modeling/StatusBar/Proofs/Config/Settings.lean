import StatusBar.Proofs.Config.AltClick
import StatusBar.Proofs.Mode.Merged

/-!
# What settings are read from

The settings of a bar are read from the members of its document, and only the mode table
looks inside objects.  So a button code for a module changes no setting, unless the module
goes by the name under which the document describes its modes: there the button is taken for
a mode.
-/

namespace StatusBar

variable {doc doc' : Document}

/-- Margins are read from members. -/
theorem Margins.ofDocument_congr
    (h : ∀ key, (doc.get key).ReadsAs (doc'.get key)) :
  ofDocument doc = ofDocument doc'
  := by
  have hsides : side? doc = side? doc' := by
    funext key
    apply (h key).int32?_eq
  have hmargin := h "margin"
  rw [ofDocument, ofDocument, ofSideKeys?, ofSideKeys?, hsides]
  generalize doc.get "margin" = node at hmargin ⊢
  generalize doc'.get "margin" = node' at hmargin ⊢
  cases hmargin with
  | refl => rfl
  | array => rfl
  | object => rfl

namespace Settings

theorem outputPatterns?_congr {node node' : Document} (h : node.ReadsAs node') :
  outputPatterns? node = outputPatterns? node'
  := by
  cases h with
  | refl => rfl
  | array texts => exact congrArg some texts
  | object => rfl

theorem position?_congr (h : ∀ key, (doc.get key).ReadsAs (doc'.get key)) :
  position? doc = position? doc'
  := by
  rw [position?, position?, (h "position").text?_eq]

/-- All settings but the mode table are read from members. -/
theorem update_congr (h : ∀ key, (doc.get key).ReadsAs (doc'.get key)) (settings : Settings) :
  update doc settings = { update doc' settings with modes := ModeTable.resolve doc }
  := by
  simp only [update, Decode.update, Margins.update, Margins.ofDocument_congr h, position?_congr h,
    outputPatterns?_congr (h _), (h _).nonEmptyText?_eq, (h _).text?_eq, (h _).bool?_eq,
    (h _).int32?_eq, (h _).uint32?_eq]

theorem with_modes_eq_iff (settings : Settings) (modes : ModeTable) :
  { settings with modes := modes } = settings ↔ modes = settings.modes
  := by
  constructor
  · exact congrArg Settings.modes
  · rintro rfl
    rfl

/-- The complaints about settings are about what is read from members. -/
theorem warnings_congr (h : ∀ key, (doc.get key).ReadsAs (doc'.get key)) :
  warnings doc = warnings doc'
  := by
  rw [warnings, warnings, positionWarnings, positionWarnings, (h "position").nonEmptyText?_eq,
    marginWarnings, marginWarnings, Margins.ofDocument_congr h]

end Settings

/-! ### Button codes and settings -/

namespace AltClick

/-- A module looks the same from outside, whatever is done to its button. -/
theorem readsAs_normalizeModule (module : Document) :
  (normalizeModule module).ReadsAs module
  := by
  cases module with
  | object members =>
    rw [normalizeModule]
    split
    · exact .object _ _
    · exact .object _ _
  | _ => exact .refl _

theorem readsAs_normalize (doc : Document) :
  (normalize doc).ReadsAs doc
  := by
  cases doc with
  | object members => exact .object _ _
  | _ => exact .refl _

theorem get_normalize (doc : Document) (name : String) :
  (normalize doc).get name
    = if name ∈ Placement.placedModules doc then normalizeModule (doc.get name)
      else doc.get name
  := by
  rw [Document.get, get?_normalize, Document.get]
  split
  · cases doc.get? name <;> rfl
  · rfl

theorem readsAs_get_normalize (doc : Document) (name : String) :
  ((normalize doc).get name).ReadsAs (doc.get name)
  := by
  rw [get_normalize]
  split
  · apply readsAs_normalizeModule
  · exact .refl _

theorem normalizeModule_of_get?_none {module : Document} (h : module.get? formatKey = none) :
  normalizeModule module = module
  := by
  cases module with
  | object members => exact normalizeModule_of_none h
  | _ => rfl

/-- A button describes no mode. -/
theorem update_button (node : Option Document) (mode : Mode) :
  Mode.update (button node) mode = mode
  := by
  obtain ⟨code, hcode⟩ := button_eq node
  rw [hcode]
  rfl

/-- An object that is taken for a module with a second format describes one more mode, which
goes by the key of the button and is nothing. -/
theorem update_normalizeModule {node : Document} (hregular : node.Regular)
    (hformat : (node.get? formatKey).isSome) :
  Decode.update (normalizeModule node) ModeTable.presets
    = (Decode.update node ModeTable.presets).insert buttonKey {}
  := by
  cases node with
  | object members =>
    have hdistinct := hregular.distinct
    rw [normalizeModule_of_some hformat]
    apply Table.ext
    intro name
    rw [Table.get?_update (hdistinct.insert _ _), Members.lookup_insert, Table.get?_insert,
      Table.get?_update hdistinct]
    by_cases hname : name = buttonKey
    · -- No preset goes by the key of the button, so the button is merged onto nothing.
      have hpreset : ModeTable.presets.get? buttonKey = none := by decide
      rw [if_pos hname, if_pos hname, hname, hpreset]
      change some (Mode.update (button _) {}) = some {}
      rw [update_button]
    · rw [if_neg hname, if_neg hname]
  | _ => cases hformat

/-- The document describes its modes under the name of a module on the bar that has a second
format. -/
def TakesModes (doc : Document) : Prop :=
  "modes" ∈ Placement.placedModules doc ∧ ((doc.get "modes").get? formatKey).isSome

instance : DecidablePred TakesModes := fun _ =>
  inferInstanceAs (Decidable (_ ∧ _))

theorem update_get_normalize (h : doc.Regular) :
  Decode.update ((normalize doc).get "modes") ModeTable.presets
    = if TakesModes doc then (Decode.update (doc.get "modes") ModeTable.presets).insert buttonKey {}
      else Decode.update (doc.get "modes") ModeTable.presets
  := by
  rw [get_normalize]
  by_cases hplaced : "modes" ∈ Placement.placedModules doc
  · rw [if_pos hplaced]
    by_cases hformat : ((doc.get "modes").get? formatKey).isSome
    · rw [if_pos ⟨hplaced, hformat⟩, update_normalizeModule (h.get "modes") hformat]
    · rw [if_neg fun h => hformat h.2,
        normalizeModule_of_get?_none (Option.not_isSome_iff_eq_none.mp hformat)]
  · rw [if_neg hplaced, if_neg fun h => hplaced h.1]

end AltClick

open AltClick

/-- Button codes change a mode table only where the modes are taken for a module. -/
theorem ModeTable.resolve_normalize (h : doc.Regular) :
  resolve (normalize doc)
    = if TakesModes doc then (resolve doc).insert buttonKey {} else resolve doc
  := by
  have hroot : ∀ mode, Mode.update (normalize doc) mode = Mode.update doc mode := by
    apply Mode.update_congr
    · apply readsAs_normalize
    · apply readsAs_get_normalize
  rw [resolve, resolve, update_get_normalize h]
  simp only [hroot]
  split
  · apply Table.modify_insert
    decide
  · rfl

namespace Config

theorem settings_ofDocument (doc : Document) :
  (ofDocument doc).settings
    = { (Decode.decode doc : Settings) with modes := ModeTable.resolve (normalize doc) }
  := Settings.update_congr (readsAs_get_normalize doc) Settings.initial

/-- The settings of a bar are those that its document gives without button codes, except
that the modes have one more, which goes by the key of the button and is nothing, where the
document describes them under the name of a module on the bar that has a second format.
There alone, and unless that mode was nothing before, the settings differ. -/
theorem settings_ofDocument_eq (h : doc.Regular) :
  (ofDocument doc).settings
      = { (Decode.decode doc : Settings) with
          modes :=
            if TakesModes doc then (ModeTable.resolve doc).insert buttonKey {}
            else ModeTable.resolve doc }
    ∧ ((ofDocument doc).settings = Decode.decode doc
      ↔ (TakesModes doc → (ModeTable.resolve doc).get? buttonKey = some {}))
  := by
  have hsettings := settings_ofDocument doc
  rw [ModeTable.resolve_normalize h] at hsettings
  use hsettings
  rw [hsettings, Settings.with_modes_eq_iff]
  change _ = ModeTable.resolve doc ↔ _
  by_cases htakes : TakesModes doc
  · rw [if_pos htakes, Table.insert_eq_self_iff]
    exact (imp_iff_right htakes).symm
  · rw [if_neg htakes]
    exact iff_of_true rfl fun h => absurd h htakes

/-- A bar that lists its modes as a module. -/
def modesAsModule : Document :=
  .object
    [("modules-left", .array [.string "modes"]),
     ("modes", .object [("format-alt", .string "x")])]

theorem regular_modesAsModule :
  modesAsModule.Regular
  := by
  have hlist : (Document.array [.string "modes"]).Regular :=
    .array (List.forall_mem_singleton.mpr (.string "modes"))
  have hmodes : (Document.object [("format-alt", .string "x")]).Regular :=
    .object (by decide) (List.forall_mem_singleton.mpr (.string "x"))
  apply Document.Regular.object (by decide)
  exact List.forall_mem_cons.mpr ⟨hlist, List.forall_mem_singleton.mpr hmodes⟩

/-- The settings of that bar have one more mode. -/
theorem settings_ofDocument_eq_modesAsModule :
  modesAsModule.Regular
    ∧ (ofDocument modesAsModule).settings
      = { (Decode.decode modesAsModule : Settings) with
          modes := (ModeTable.resolve modesAsModule).insert buttonKey {} }
  := by
  use regular_modesAsModule
  obtain ⟨h, -⟩ := settings_ofDocument_eq regular_modesAsModule
  rw [h, if_pos]
  decide

/-- Button codes may change a mode table. -/
theorem settings_differ :
  ¬ ∀ doc : Document, doc.Regular →
    (ofDocument doc).settings = Decode.decode doc
      ∧ (ofDocument doc).settings.modes = ModeTable.resolve doc
  := by
  intro h
  obtain ⟨-, hmodes⟩ := h modesAsModule regular_modesAsModule
  have hget : ((ofDocument modesAsModule).settings.modes.get? buttonKey).isSome := by decide
  rw [hmodes] at hget
  revert hget
  decide

end Config

end StatusBar
