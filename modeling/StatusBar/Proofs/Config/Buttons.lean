import Mathlib.Data.List.Forall2
import StatusBar.Proofs.Document.Yields
import StatusBar.Proofs.Placement.Agreement
import StatusBar.Proofs.Placement.Listed

/-!
# What button codes change

Giving button codes changes one member of those entries of a document that describe a module on
the bar with a second format, and nothing else: not another entry, another member, or the order
of either.  No list of modules changes, so a document that has its button codes keeps them, and
gives the same bar again.
-/

namespace StatusBar

namespace AltClick

/-- The code of the button that a node stands for, if there is a node. -/
inductive StandsFor : Option Document → Int → Prop
  | code {code : Int} (hcode : 0 ≤ code) : StandsFor (some (.number (.integer code))) code
  | right : StandsFor (some (.string "click-right")) 3
  | middle : StandsFor (some (.string "click-middle")) 2
  | backward : StandsFor (some (.string "click-backward")) 8
  | forward : StandsFor (some (.string "click-forward")) 9
  | other {node? : Option Document}
    (hcode : ∀ code, node? = some (.number (.integer code)) → code < 0)
    (hname : ∀ name, node? = some (.string name) →
      name ∉ ["click-right", "click-middle", "click-backward", "click-forward"]) :
    StandsFor node? 1

/-- The members of a module, and these with a button code: it stands where something else stood
under its key, or else after all the others. -/
inductive Coded : Members → Members → Prop
  | replaced {before after : Members} {node : Document} {code : Int}
    (hbefore : buttonKey ∉ before.map Prod.fst) (hcode : StandsFor (some node) code) :
    Coded (before ++ (buttonKey, node) :: after)
      (before ++ (buttonKey, .number (.integer code)) :: after)
  | appended {members : Members} (hkey : buttonKey ∉ members.map Prod.fst) :
    Coded members (members ++ [(buttonKey, .number (.integer 1))])

/-- A name of a module on the bar: no group, and listed in a section or in a group that a
section leads to. -/
def NamesModule (doc : Document) (name : String) : Prop :=
  ¬ groupStart.toList <+: name.toList
    ∧ Placement.ListedBelow doc (fun group => groupStart.toList <+: group.toList) name

/-- An entry of a document, and the same with button codes. -/
inductive CodedEntry (doc : Document) : String × Document → String × Document → Prop
  | module {name : String} {members members' : Members} (hname : NamesModule doc name)
    (hformat : formatKey ∈ members.map Prod.fst) (hcoded : Coded members members') :
    CodedEntry doc (name, .object members) (name, .object members')
  | other {entry : String × Document}
    (hother : NamesModule doc entry.1 → ∀ members, entry.2 = .object members →
      formatKey ∉ members.map Prod.fst) :
    CodedEntry doc entry entry

/-- A document, and the same with button codes. -/
inductive CodedDocument : Document → Document → Prop
  | object {members members' : Members}
    (hentries : List.Forall₂ (CodedEntry (.object members)) members members') :
    CodedDocument (.object members) (.object members')
  | other {doc : Document} (hobject : doc.isObject = false) : CodedDocument doc doc

end AltClick

namespace AltClick

variable {doc : Document} {name : String}

/-! ### Codes -/

/-- A button is the code that its node stands for. -/
theorem standsFor_button (node? : Option Document) :
  ∃ code, button node? = .number (.integer code) ∧ StandsFor node? code
  := by
  rw [button.eq_def]
  split
  case h_1 code =>
    split
    case isTrue hcode => exact ⟨code, rfl, .code hcode⟩
    case isFalse hcode =>
      use 1, rfl
      apply StandsFor.other
      · intro code' h
        cases h
        exact Int.lt_of_not_ge hcode
      · intro name h
        cases h
  case h_2 name =>
    rw [buttonCode.eq_def]
    split
    · exact ⟨3, rfl, .right⟩
    · exact ⟨2, rfl, .middle⟩
    · exact ⟨8, rfl, .backward⟩
    · exact ⟨9, rfl, .forward⟩
    case h_5 hright hmiddle hbackward hforward =>
      use 1, rfl
      apply StandsFor.other
      · intro code h
        cases h
      · intro name' h
        cases h
        simp only [List.mem_cons, List.not_mem_nil, or_false, not_or]
        exact ⟨hright, hmiddle, hbackward, hforward⟩
  case h_3 hcode hname =>
    use 1, rfl
    apply StandsFor.other
    · intro code h
      cases hcode code h
    · intro name h
      cases hname name h

theorem coded_insert (members : Members) :
  Coded members (Members.insert buttonKey (button (members.lookup buttonKey)) members)
  := by
  obtain ⟨code, hbutton, hcode⟩ := standsFor_button (members.lookup buttonKey)
  rw [hbutton]
  cases hnode : members.lookup buttonKey with
  | none =>
    have hkey := (Members.lookup_eq_none_iff members buttonKey).mp hnode
    rw [Members.insert_of_not_mem hkey]
    rw [hnode] at hcode
    cases hcode with
    | other => apply Coded.appended hkey
  | some node =>
    obtain ⟨before, after, rfl, hbefore⟩ := Members.exists_of_lookup hnode
    rw [Members.insert_append hbefore]
    rw [hnode] at hcode
    apply Coded.replaced hbefore hcode

theorem mem_placedModules_iff_namesModule :
  name ∈ Placement.placedModules doc ↔ NamesModule doc name
  := by
  rw [Placement.mem_placedModules_iff, Placement.reached_iff_listedBelow, NamesModule, and_comm]
  simp only [Placement.isGroupReference_iff_begins]

/-- An entry of a document with its button code, if it is that of a module on the bar. -/
def normalizeEntry (doc : Document) (entry : String × Document) : String × Document :=
  (entry.1, if entry.1 ∈ Placement.placedModules doc then normalizeModule entry.2 else entry.2)

/-- A module on the bar that has a second format is given its code, and every other entry stays
as it is. -/
theorem codedEntry_normalizeEntry (entry : String × Document) :
  CodedEntry doc entry (normalizeEntry doc entry)
  := by
  obtain ⟨name, module⟩ := entry
  rw [normalizeEntry]
  by_cases hplaced : name ∈ Placement.placedModules doc
  · rw [if_pos hplaced]
    cases module with
    | object members =>
      by_cases hformat : formatKey ∈ members.map Prod.fst
      · rw [normalizeModule_of_some ((Members.mem_names_iff members formatKey).mp hformat)]
        apply CodedEntry.module (mem_placedModules_iff_namesModule.mp hplaced) hformat
        apply coded_insert
      · rw [normalizeModule_of_none ((Members.lookup_eq_none_iff members formatKey).mpr hformat)]
        apply CodedEntry.other
        rintro - members' ⟨⟩
        exact hformat
    | _ =>
      apply CodedEntry.other
      rintro - members' ⟨⟩
  · rw [if_neg hplaced]
    apply CodedEntry.other
    intro hname
    cases hplaced (mem_placedModules_iff_namesModule.mpr hname)

/-! ### Documents with button codes -/

theorem normalize_object {members : Members} (h : members.Distinct) :
  normalize (.object members) = .object (members.map (normalizeEntry (.object members)))
  := by
  rw [normalize, h.foldl_modify_eq_map normalizeModule_idem]
  rfl

theorem codedDocument_normalize (h : doc.Regular) :
  CodedDocument doc (normalize doc)
  := by
  cases doc with
  | object members =>
    rw [normalize_object h.distinct]
    apply CodedDocument.object
    rw [List.forall₂_map_right_iff, List.forall₂_same]
    intro entry _
    apply codedEntry_normalizeEntry
  | _ => exact .other rfl

theorem mem_placedModules_normalize :
  name ∈ Placement.placedModules (normalize doc) ↔ name ∈ Placement.placedModules doc
  := by
  rw [Placement.mem_placedModules_iff, reached_normalize_iff, Placement.mem_placedModules_iff]

/-- An entry has its button code once and for all, since the same modules are on the bar. -/
theorem normalizeEntry_normalizeEntry (entry : String × Document) :
  normalizeEntry (normalize doc) (normalizeEntry doc entry) = normalizeEntry doc entry
  := by
  simp only [normalizeEntry, mem_placedModules_normalize]
  split
  · rw [normalizeModule_idem]
  · rfl

/-- Button codes stay once they are given. -/
theorem normalize_normalize (h : doc.Regular) :
  normalize (normalize doc) = normalize doc
  := by
  cases doc with
  | object members =>
    have hdistinct : Members.Distinct (members.map (normalizeEntry (.object members))) := by
      rw [Members.Distinct, List.map_map]
      exact h.distinct
    have hentry := @normalizeEntry_normalizeEntry (.object members)
    rw [normalize_object h.distinct] at hentry ⊢
    rw [normalize_object hdistinct, List.map_map]
    congr 1
    apply List.map_congr_left
    intro entry _
    apply hentry
  | _ => rfl

/-- Giving button codes to a document gives a code to every module on the bar that has a second
format, in the place of what stood there or after its other members, and leaves all other entries
and members, and the order of them all, as they are.  Every list names the same modules before
and after.  To give codes again changes nothing, and so the bar's kept document gives the same
bar, with the same complaints. -/
theorem normalize_exact (doc : Document) (h : doc.Regular) :
  CodedDocument doc (normalize doc)
    ∧ (∀ list, moduleList (normalize doc) list = moduleList doc list)
    ∧ normalize (normalize doc) = normalize doc
    ∧ Config.load (Config.ofDocument doc).document = Config.load doc
  := by
  use codedDocument_normalize h, moduleList_normalize doc, normalize_normalize h
  rw [Config.load, Config.load, Config.ofDocument, Config.ofDocument, normalize_normalize h]

/-- A bar that lists a clock twice, and a module that goes by the name of a section. -/
def clockTwice : Document :=
  .object
    [("modules-left", .array [.string "clock", .string "group/g", .string "modules-right"]),
     ("clock", .object [("format-alt-click", .string "click-right"), ("format-alt", .string "%F")]),
     ("cpu", .object [("format-alt", .string "%")]),
     ("modules-right", .object [("format-alt", .null)]),
     ("group/g", .object [("modules", .array [.string "group/g", .string "clock"])])]

theorem regular_clockTwice :
  clockTwice.Regular
  := by
  have hlist : ∀ names : List String, (Document.array (names.map .string)).Regular := by
    intro names
    apply Document.Regular.array
    intro item hitem
    obtain ⟨name, -, rfl⟩ := List.mem_map.mp hitem
    exact .string name
  have hclock : (Document.object
      [("format-alt-click", .string "click-right"), ("format-alt", .string "%F")]).Regular :=
    .object (by decide) (by simp [Document.Regular.string])
  have hcpu : (Document.object [("format-alt", .string "%")]).Regular :=
    .object (by decide) (by simp [Document.Regular.string])
  have hsection : (Document.object [("format-alt", .null)]).Regular :=
    .object (by decide) (by simp [Document.Regular.null])
  have hgroup : (Document.object
      [("modules", .array [.string "group/g", .string "clock"])]).Regular :=
    .object (by decide) (List.forall_mem_singleton.mpr (hlist ["group/g", "clock"]))
  apply Document.Regular.object (by decide)
  simp only [List.forall_mem_cons]
  exact ⟨hlist ["clock", "group/g", "modules-right"], hclock, hcpu, hsection, hgroup,
    List.forall_mem_nil _⟩

/-- The clock switches by the right button, and what is named like a section by the left one. -/
theorem normalize_exact_clockTwice :
  clockTwice.Regular
    ∧ CodedDocument clockTwice
      (.object
        [("modules-left", .array [.string "clock", .string "group/g", .string "modules-right"]),
         ("clock",
          .object [("format-alt-click", .number (.integer 3)), ("format-alt", .string "%F")]),
         ("cpu", .object [("format-alt", .string "%")]),
         ("modules-right",
          .object [("format-alt", .null), ("format-alt-click", .number (.integer 1))]),
         ("group/g", .object [("modules", .array [.string "group/g", .string "clock"])])])
    ∧ Config.load (Config.ofDocument clockTwice).document = Config.load clockTwice
  := by
  obtain ⟨hcoded, -, -, hload⟩ := normalize_exact clockTwice regular_clockTwice
  exact ⟨regular_clockTwice, hcoded, hload⟩

end AltClick

end StatusBar
