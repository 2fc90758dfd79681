import StatusBar.Proofs.Placement.Agreement
import StatusBar.Proofs.Placement.Listed

/-!
# What the search for a module finds

A module is enabled just if it is listed in a section or in a group that a section leads to.
The search enters every group once, whichever branch or section comes to it first, and stops
at the first hit.  It finds what a search finds that keeps no account of the groups it was in,
and so goes into a group again wherever it is listed.
-/

namespace StatusBar

namespace Placement

/-- Whether a list names a wanted reference, or a group that does so, at most `depth` lists
deep.  A group is gone into wherever it is listed. -/
def findsBelow (doc : Document) (wanted : String → Bool) : (depth : Nat) → (list : String) → Bool
  | 0, _ => false
  | depth + 1, list =>
    (moduleList doc list).any fun reference =>
      wanted reference || isGroupReference reference && findsBelow doc wanted depth reference

variable {doc : Document} {wanted : String → Bool} {depth : Nat} {list : String}

theorem findsBelow_succ_iff :
  findsBelow doc wanted (depth + 1) list
    ↔ ∃ reference ∈ moduleList doc list,
      wanted reference ∨ isGroupReference reference ∧ findsBelow doc wanted depth reference
  := by
  rw [findsBelow, List.any_eq_true]
  simp only [Bool.or_eq_true, Bool.and_eq_true]

/-- Nothing is found but what is reached. -/
theorem exists_reached_of_findsBelow (hlist : Listing doc (isGroupReference ·) list)
    (h : findsBelow doc wanted depth list) :
  ∃ name, Reached doc (isGroupReference ·) name ∧ wanted name
  := by
  induction depth generalizing list with
  | zero => cases h
  | succ depth ih =>
    obtain ⟨reference, hlisted, hwanted | ⟨hgroup, hbelow⟩⟩ := findsBelow_succ_iff.mp h
    · use reference, hlist.reached hlisted
    · apply ih _ hbelow
      exact .inr ⟨hlist.reached hlisted, hgroup⟩

/-- What is found at some depth is found by going deeper. -/
theorem findsBelow_add (further : Nat) (h : findsBelow doc wanted depth list) :
  findsBelow doc wanted (depth + further) list
  := by
  induction depth generalizing list with
  | zero => cases h
  | succ depth ih =>
    obtain ⟨reference, hlisted, hfound⟩ := findsBelow_succ_iff.mp h
    rw [Nat.succ_add]
    apply findsBelow_succ_iff.mpr
    use reference, hlisted
    apply hfound.imp_right
    apply And.imp_right
    exact ih

/-- Where steps one after the other come to a stop, one of them does. -/
theorem exists_of_foldlM_eq_none {α β : Type} {step : β → α → Option β} {items : List α}
    {state : β} (h : items.foldlM step state = none) :
  ∃ item ∈ items, ∃ before, step before item = none
  := by
  induction items generalizing state with
  | nil => cases h
  | cons item items ih =>
    rw [List.foldlM_cons] at h
    cases hstep : step state item with
    | none => exact ⟨item, List.mem_cons_self, state, hstep⟩
    | some next =>
      rw [hstep] at h
      obtain ⟨other, hother, hnone⟩ := ih h
      exact ⟨other, List.mem_cons_of_mem _ hother, hnone⟩

/-- What the search finds is found without an account of the groups entered. -/
theorem findsBelow_of_seek {entered : List String} (h : seek doc wanted depth list entered = none) :
  findsBelow doc wanted depth list
  := by
  induction depth generalizing list entered with
  | zero => cases h
  | succ depth ih =>
    obtain ⟨reference, hlisted, before, hnone⟩ := exists_of_foldlM_eq_none h
    apply findsBelow_succ_iff.mpr
    use reference, hlisted
    split at hnone
    case isTrue hwanted => exact .inl hwanted
    case isFalse =>
      split at hnone
      case isTrue hnew =>
        right
        rw [Bool.and_eq_true] at hnew
        exact ⟨hnew.1, ih hnone⟩
      case isFalse => cases hnone

/-- To keep no account of the groups entered makes no difference, as deep as the search goes
or deeper. -/
theorem any_findsBelow_eq (doc : Document) (reference : String) (further : Nat) :
  Section.all.any (findsBelow doc (isListedAs reference) (walkDepth doc + further))
    = isPlaced doc reference
  := by
  rw [Bool.eq_iff_iff, List.any_eq_true]
  constructor
  · rintro ⟨list, hlist, hfinds⟩
    apply isPlaced_iff.mpr
    apply exists_reached_of_findsBelow (.inl hlist) hfinds
  · intro hplaced
    have hnone := Option.isNone_iff_eq_none.mp hplaced
    obtain ⟨list, hlist, entered, hseek⟩ := exists_of_foldlM_eq_none hnone
    use list, hlist
    apply findsBelow_add
    apply findsBelow_of_seek hseek

end Placement

namespace Config

open Placement (ListedBelow findsBelow isListedAs walkDepth)

/-- A module is enabled just if a name that is listed in a section, or in a group to which
listed references lead from a section, is that of the module, with a style class or without.
The search that goes into every group once finds what the search does that goes into a group
wherever it is listed, however deep that is allowed to go beyond the number of groups. -/
theorem isEnabled_iff_listedBelow (doc : Document) (reference : String) :
  ((ofDocument doc).isEnabled reference
      ↔ ∃ name, ListedBelow doc (fun group => groupStart.toList <+: group.toList) name
        ∧ (name = reference ∨ bareName name = reference))
    ∧ ∀ further, (ofDocument doc).isEnabled reference
      = Section.all.any (findsBelow doc (isListedAs reference) (walkDepth doc + further))
  := by
  have henabled := @isEnabled_ofDocument_iff doc reference
  constructor
  · rw [henabled]
    apply exists_congr
    intro name
    rw [Placement.reached_iff_listedBelow, isListedAs, Bool.or_eq_true, decide_eq_true_eq,
      decide_eq_true_eq]
    simp only [Placement.isGroupReference_iff_begins]
  · intro further
    rw [Placement.any_findsBelow_eq, Bool.eq_iff_iff, henabled, Placement.isPlaced_iff]

end Config

end StatusBar
