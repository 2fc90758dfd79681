import StatusBar.Config
import StatusBar.Proofs.Document.Members

/-!
# Button codes of modules

What giving button codes does to a document: the entry of every module on the bar is
brought into its form, once and for all, and every other entry stays.  No list changes, and
a module with a second format has a button code.
-/

namespace StatusBar.AltClick

variable {doc : Document} {name : String}

/-- A button is a code that is not negative. -/
theorem button_eq (node : Option Document) :
  ∃ code : Nat, button node = .number (.integer code)
  := by
  rw [button.eq_def]
  split
  case h_1 code =>
    split
    case isTrue hcode =>
      use code.toNat
      rw [Int.toNat_of_nonneg hcode]
    case isFalse => exact ⟨1, rfl⟩
  case h_2 name =>
    rw [buttonCode.eq_def]
    split
    · exact ⟨3, rfl⟩
    · exact ⟨2, rfl⟩
    · exact ⟨8, rfl⟩
    · exact ⟨9, rfl⟩
    · exact ⟨1, rfl⟩
  case h_3 => exact ⟨1, rfl⟩

/-- A button stands for itself. -/
theorem button_button (node : Option Document) :
  button (some (button node)) = button node
  := by
  obtain ⟨code, hcode⟩ := button_eq node
  rw [hcode, button, if_pos (Int.natCast_nonneg code)]

/-- A module without a second format stays as it is. -/
theorem normalizeModule_of_none {members : Members} (h : members.lookup formatKey = none) :
  normalizeModule (.object members) = .object members
  := by
  rw [normalizeModule, h]
  rfl

/-- A module with a second format is given a button. -/
theorem normalizeModule_of_some {members : Members} (h : (members.lookup formatKey).isSome) :
  normalizeModule (.object members)
    = .object (Members.insert buttonKey (button (members.lookup buttonKey)) members)
  := by
  rw [normalizeModule, if_pos h]

/-- A button does not touch the second format. -/
theorem lookup_formatKey_insert (members : Members) (value : Document) :
  (Members.insert buttonKey value members).lookup formatKey = members.lookup formatKey
  := by
  rw [Members.lookup_insert, if_neg (by decide)]

/-- A module in its form stays as it is. -/
theorem normalizeModule_idem (module : Document) :
  normalizeModule (normalizeModule module) = normalizeModule module
  := by
  cases module with
  | object members =>
    cases hformat : members.lookup formatKey with
    | none => rw [normalizeModule_of_none hformat, normalizeModule_of_none hformat]
    | some format =>
      have hsome : (members.lookup formatKey).isSome := by rw [hformat]; rfl
      have hsome' : ((Members.insert buttonKey (button (members.lookup buttonKey)) members).lookup
          formatKey).isSome := by
        rw [lookup_formatKey_insert]
        exact hsome
      rw [normalizeModule_of_some hsome, normalizeModule_of_some hsome', Members.lookup_insert,
        if_pos rfl, button_button, Members.insert_insert]
  | _ => rfl

/-- A module has no items, before and after. -/
theorem texts_normalizeModule (module : Document) :
  (normalizeModule module).texts = module.texts
  := by
  cases module with
  | object members =>
    rw [normalizeModule]
    split
    · rfl
    · rfl
  | _ => rfl

/-- The entries of the modules on the bar are brought into their form. -/
theorem get?_normalize (doc : Document) (name : String) :
  (normalize doc).get? name
    = if name ∈ Placement.placedModules doc then (doc.get? name).map normalizeModule
      else doc.get? name
  := by
  cases doc with
  | object members => exact Members.lookup_foldl_modify normalizeModule_idem _ members name
  | _ => simp [normalize, Document.get?]

/-- No list of modules changes. -/
theorem moduleList_normalize (doc : Document) (list : String) :
  moduleList (normalize doc) list = moduleList doc list
  := by
  rw [moduleList, moduleList]
  by_cases hsection : Text.beginsWith Section.start list
  · rw [if_pos hsection, if_pos hsection, Document.get, Document.get, get?_normalize]
    split
    · cases doc.get? list with
      | none => rfl
      | some module => exact texts_normalizeModule module
    · rfl
  · rw [if_neg hsection, if_neg hsection]
    by_cases hgroup : isGroupReference list
    · have hplaced : list ∉ Placement.placedModules doc := by
        intro hmem
        have hmodule := (List.mem_filter.mp hmem).2
        rw [hgroup] at hmodule
        cases hmodule
      have hget : (normalize doc).get list = doc.get list := by
        rw [Document.get, get?_normalize, if_neg hplaced, Document.get]
      rw [if_pos hgroup, if_pos hgroup, hget]
    · rw [if_neg hgroup, if_neg hgroup]

/-- A module on the bar that has a second format has a button code. -/
theorem lookup_buttonKey_normalize (hplaced : name ∈ Placement.placedModules doc)
    {members : Members} (h : (normalize doc).get? name = some (.object members))
    (hformat : (members.lookup formatKey).isSome) :
  ∃ code : Nat, members.lookup buttonKey = some (.number (.integer code))
  := by
  rw [get?_normalize, if_pos hplaced] at h
  obtain ⟨module, -, hmodule⟩ := Option.map_eq_some_iff.mp h
  have hagain : normalizeModule (.object members) = .object members := by
    rw [← hmodule, normalizeModule_idem]
  rw [normalizeModule_of_some hformat] at hagain
  obtain ⟨code, hcode⟩ := button_eq (members.lookup buttonKey)
  use code
  rw [← Document.object.inj hagain, Members.lookup_insert, if_pos rfl, hcode]

end StatusBar.AltClick
