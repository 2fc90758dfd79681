import StatusBar.ModuleTree
import StatusBar.Proofs.Config.Settings
import StatusBar.Proofs.Placement.Reach

/-!
# Bars of reordered documents

A bar is resolved by the names of its document's members, never by their order.  The lists
of a reordered document are the same, and there are as many groups, so every walk over them
goes the same way; and the modules that get a button code are the same.  Configurations
that are `Alike` cannot be told apart but for the order of members in the document they keep.
-/

namespace StatusBar

variable {doc doc' : Document}

/-! ### Walks over the same lists -/

namespace Placement

theorem walk_congr (hlists : moduleList doc = moduleList doc') (depth : Nat) :
  walk doc depth = walk doc' depth
  := by
  induction depth with
  | zero => rfl
  | succ depth ih =>
    funext list state
    rw [walk, walk, hlists, ih]

theorem seek_congr (hlists : moduleList doc = moduleList doc') (wanted : String → Bool)
    (depth : Nat) :
  seek doc wanted depth = seek doc' wanted depth
  := by
  induction depth with
  | zero => rfl
  | succ depth ih =>
    funext list entered
    rw [seek, seek, hlists, ih]

end Placement

theorem Node.ofList_congr (hlists : moduleList doc = moduleList doc')
    (horientation : groupOrientation doc = groupOrientation doc') (depth : Nat) :
  ofList doc depth = ofList doc' depth
  := by
  induction depth with
  | zero => rfl
  | succ depth ih =>
    funext path outer list
    rw [ofList, ofList, hlists, horientation, ih]

/-! ### The lists of reordered documents -/

namespace Document.Reordered

variable (h : doc.Reordered doc')

include h

theorem moduleList_eq :
  moduleList doc = moduleList doc'
  := by
  funext list
  rw [moduleList, moduleList, (h.get list).readsAs.texts_eq,
    ((h.get list).get "modules").readsAs.texts_eq]

theorem groupOrientation_eq :
  groupOrientation doc = groupOrientation doc'
  := by
  funext reference
  change ((_ : Option String).bind _).getD _ = ((_ : Option String).bind _).getD _
  rw [((h.get reference).get "orientation").readsAs.text?_eq]

theorem memberNames_perm :
  (Placement.memberNames doc).Perm (Placement.memberNames doc')
  := by
  cases h with
  | object _ names _ => exact names
  | _ => exact .refl _

theorem walkDepth_eq :
  Placement.walkDepth doc = Placement.walkDepth doc'
  := by
  have hreferences : (Placement.references doc).Perm (Placement.references doc') := by
    rw [Placement.references, Placement.references, h.moduleList_eq]
    apply h.memberNames_perm.flatMap_right
  have hgroups : (Placement.groupReferences doc).Perm (Placement.groupReferences doc') := by
    apply (List.perm_ext_iff_of_nodup (Placement.nodup_eraseDups _)
      (Placement.nodup_eraseDups _)).mpr
    intro reference
    rw [List.mem_eraseDups, List.mem_eraseDups]
    apply (hreferences.filter _).mem_iff
  rw [Placement.walkDepth, Placement.walkDepth, hgroups.length_eq]

theorem placedModules_eq :
  Placement.placedModules doc = Placement.placedModules doc'
  := by
  rw [Placement.placedModules, Placement.placedModules, Placement.placed, Placement.placed,
    h.walkDepth_eq, Placement.walk_congr h.moduleList_eq]

end Document.Reordered

/-! ### Configurations of reordered documents -/

namespace AltClick

theorem button_reordered {node node' : Option Document}
    (h : Option.Rel Document.Reordered node node') :
  (button node).Reordered (button node')
  := by
  have hbutton : button node = button node' := by
    cases h with
    | none => rfl
    | some h => cases h <;> rfl
  obtain ⟨code, hcode⟩ := button_eq node'
  rw [hbutton, hcode]
  exact .number _

theorem normalizeModule_reordered (h : doc.Reordered doc') :
  (normalizeModule doc).Reordered (normalizeModule doc')
  := by
  have hsome := isSome_eq_of_rel (h.get? formatKey)
  by_cases hformat : (doc.get? formatKey).isSome
  · have hbutton := button_reordered (h.get? buttonKey)
    rw [hformat] at hsome
    cases doc with
    | object members =>
      cases h with
      | object distinct names values =>
        rw [normalizeModule_of_some hformat, normalizeModule_of_some hsome.symm]
        apply (Document.Reordered.object distinct names values).insert hbutton
    | _ => cases hformat
  · have hformat' := hformat
    rw [hsome] at hformat'
    rw [normalizeModule_of_get?_none (Option.not_isSome_iff_eq_none.mp hformat),
      normalizeModule_of_get?_none (Option.not_isSome_iff_eq_none.mp hformat')]
    exact h

/-- The same modules are given the same buttons. -/
theorem normalize_reordered (h : doc.Reordered doc') :
  (normalize doc).Reordered (normalize doc')
  := by
  have hplaced := h.placedModules_eq
  cases h with
  | object distinct names values =>
    have h := Document.Reordered.object distinct names values
    obtain ⟨distinct, distinct', hlookup⟩ := Document.reordered_object_iff.mp h
    apply Document.reordered_object_iff.mpr
    use distinct.foldl_modify _ _, distinct'.foldl_modify _ _
    intro name
    rw [Members.lookup_foldl_modify normalizeModule_idem,
      Members.lookup_foldl_modify normalizeModule_idem, hplaced]
    split
    · apply map_rel (hlookup name)
      intro module module' h
      apply normalizeModule_reordered h
    · exact hlookup name
  | array same_length each => exact .array same_length each
  | null => exact .null
  | bool value => exact .bool value
  | number value => exact .number value
  | string value => exact .string value

end AltClick

/-- Configurations that are resolved alike: the same settings, lists, modules and trees, out
of documents that differ in their order at most. -/
structure Config.Alike (config config' : Config) : Prop where
  settings : config.settings = config'.settings
  document : config.document.Reordered config'.document
  lists : ∀ reference, config.moduleList reference = config'.moduleList reference
  enabled : ∀ reference, config.isEnabled reference = config'.isEnabled reference
  trees : ∀ orientation,
    ModuleTree.resolve config orientation = ModuleTree.resolve config' orientation

namespace Config

theorem alike_of_reordered {config config' : Config}
    (hsettings : config.settings = config'.settings)
    (h : config.document.Reordered config'.document) :
  config.Alike config'
  := by
  constructor
  case settings => exact hsettings
  case document => exact h
  case lists =>
    intro reference
    rw [moduleList, moduleList, h.moduleList_eq]
  case enabled =>
    intro reference
    rw [isEnabled, isEnabled, Placement.isPlaced, Placement.isPlaced, h.walkDepth_eq,
      Placement.seek_congr h.moduleList_eq]
  case trees =>
    intro orientation
    rw [ModuleTree.resolve, ModuleTree.resolve]
    simp only [ModuleTree.resolveSection, h.walkDepth_eq,
      Node.ofList_congr h.moduleList_eq h.groupOrientation_eq]

/-- Documents that are loaded with the same complaints, into configurations that are resolved
alike. -/
def LoadAlike (doc doc' : Document) : Prop :=
  (load doc).log = (load doc').log ∧ (load doc).value.Alike (load doc').value

theorem loadAlike_of_reordered (h : doc.Reordered doc') :
  LoadAlike doc doc'
  := by
  have hnormalize := AltClick.normalize_reordered h
  have hmembers : ∀ key, ((AltClick.normalize doc).get key).ReadsAs
      ((AltClick.normalize doc').get key) := by
    intro key
    apply (hnormalize.get key).readsAs
  constructor
  · apply Settings.warnings_congr hmembers
  · apply alike_of_reordered _ hnormalize
    apply (Settings.update_congr hmembers Settings.initial).trans
    rw [ModeTable.resolve_reordered hnormalize]
    rfl

/-- The order of members never matters to a bar: not where a document is reordered, and so
not where the last member moves into the place of one that is taken out. -/
theorem order_never_matters :
  (∀ doc doc' : Document, doc.Reordered doc' → LoadAlike doc doc')
    ∧ ∀ (members : Members) (key : String), (Document.object members).Regular →
      LoadAlike (.object (Members.swapRemove key members))
        (.object (members.filter fun member => member.1 ≠ key))
  := by
  constructor
  · intro doc doc' h
    apply loadAlike_of_reordered h
  · intro members key h
    apply loadAlike_of_reordered (Document.Reordered.swapRemove h key)

/-- The members of a bar that includes nothing and shows the time. -/
def clockMembers : Members :=
  [("include", .array []),
   ("modules-left", .array [.string "clock"]),
   ("clock", .object [("format-alt", .string "%F")])]

theorem regular_clockMembers :
  (Document.object clockMembers).Regular
  := by
  have hempty : (Document.array []).Regular := .array (List.forall_mem_nil _)
  have hlist : (Document.array [.string "clock"]).Regular :=
    .array (List.forall_mem_singleton.mpr (.string "clock"))
  have hclock : (Document.object [("format-alt", .string "%F")]).Regular :=
    .object (by decide) (List.forall_mem_singleton.mpr (.string "%F"))
  apply Document.Regular.object (by decide)
  exact List.forall_mem_cons.mpr
    ⟨hempty, List.forall_mem_cons.mpr ⟨hlist, List.forall_mem_singleton.mpr hclock⟩⟩

/-- The clock comes before the list that names it, once what was included is taken out. -/
theorem order_never_matters_clockMembers :
  (Document.object clockMembers).Reordered (.object clockMembers.reverse)
    ∧ LoadAlike (.object clockMembers) (.object clockMembers.reverse)
    ∧ (Document.object clockMembers).Regular
    ∧ LoadAlike (.object (Members.swapRemove "include" clockMembers))
        (.object (clockMembers.filter fun member => member.1 ≠ "include"))
  := by
  have hreverse := regular_clockMembers.reordered_of_perm (List.reverse_perm clockMembers).symm
  use hreverse, order_never_matters.1 _ _ hreverse, regular_clockMembers
  exact order_never_matters.2 clockMembers "include" regular_clockMembers

end Config

end StatusBar
