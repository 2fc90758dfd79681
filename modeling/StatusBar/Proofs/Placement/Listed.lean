import Mathlib.Logic.Relation
import StatusBar.Proofs.Document.Readings
import StatusBar.Proofs.Placement.Reach

/-!
# Lists and where they lead

The graph of a document's groups.  `Lists` says what a section or a group lists, in terms of
the document's members, and a list leads to the groups that it names, if they are of the kind
that is gone into.  What is listed at the end of a way from a section is what is reached.
-/

namespace StatusBar.Placement

open Document (mem_texts_iff get_eq_iff get?_eq_some_iff)

/-- What a document lists: under a section's name there is an array of references, and under
that of a group an object whose member `modules` is one. -/
inductive Lists (doc : Document) (list reference : String) : Prop
  | inSection {items : List Document} (hstart : Section.start.toList <+: list.toList)
    (hitems : doc.get? list = some (.array items)) (hlisted : .string reference ∈ items)
  | inGroup {members : Members} {items : List Document}
    (hstart : groupStart.toList <+: list.toList)
    (hmembers : doc.get? list = some (.object members))
    (hitems : members.lookup "modules" = some (.array items))
    (hlisted : .string reference ∈ items)

/-- A list leads to a group that it names, if groups of that kind are gone into. -/
def Leads (doc : Document) (enters : String → Prop) (list group : String) : Prop :=
  Lists doc list group ∧ enters group

/-- A reference is listed in a section, or in a group that a section leads to, over other
groups or not. -/
def ListedBelow (doc : Document) (enters : String → Prop) (reference : String) : Prop :=
  ∃ origin ∈ Section.all, ∃ list,
    Relation.ReflTransGen (Leads doc enters) origin list ∧ Lists doc list reference

variable {doc : Document} {enters : String → Prop} {list reference : String}

/-! ### Lists of a document -/

/-- The name of a group is not the name of a section. -/
theorem not_section_of_group (h : groupStart.toList <+: list.toList) :
  ¬ Section.start.toList <+: list.toList
  := by
  intro hsection
  have hprefix := List.prefix_or_prefix_of_prefix h hsection
  revert hprefix
  decide

theorem isGroupReference_iff_begins :
  isGroupReference reference ↔ groupStart.toList <+: reference.toList
  := List.isPrefixOf_iff_prefix

/-- What a list is read as is what the document lists. -/
theorem mem_moduleList_iff :
  reference ∈ moduleList doc list ↔ Lists doc list reference
  := by
  have hsection : Text.beginsWith Section.start list ↔ Section.start.toList <+: list.toList :=
    List.isPrefixOf_iff_prefix
  have harray : ∀ items, Document.array items ≠ .null := by
    rintro items ⟨⟩
  have hobject : ∀ members, Document.object members ≠ .null := by
    rintro members ⟨⟩
  rw [moduleList]
  constructor
  · intro h
    split at h
    case isTrue hstart =>
      obtain ⟨items, hitems, hlisted⟩ := mem_texts_iff.mp h
      apply Lists.inSection (hsection.mp hstart) ((get_eq_iff (harray _)).mp hitems) hlisted
    case isFalse =>
      split at h
      case isTrue hstart =>
        obtain ⟨items, hitems, hlisted⟩ := mem_texts_iff.mp h
        obtain ⟨members, hmembers, hmodules⟩ :=
          get?_eq_some_iff.mp ((get_eq_iff (harray _)).mp hitems)
        apply Lists.inGroup (isGroupReference_iff_begins.mp hstart)
          ((get_eq_iff (hobject _)).mp hmembers) hmodules hlisted
      case isFalse => cases h
  · intro h
    cases h with
    | @inSection items hstart hitems hlisted =>
      rw [if_pos (hsection.mpr hstart)]
      apply mem_texts_iff.mpr
      use items, (get_eq_iff (harray _)).mpr hitems
    | @inGroup members items hstart hmembers hitems hlisted =>
      rw [if_neg (hsection.not.mpr (not_section_of_group hstart)),
        if_pos (isGroupReference_iff_begins.mpr hstart), (get_eq_iff (hobject _)).mpr hmembers]
      apply mem_texts_iff.mpr
      use items, (get_eq_iff (harray _)).mpr hitems

/-! ### Ways from a section -/

/-- A list to which a section leads is the section's, or that of a reached group. -/
theorem listing_of_leads {origin : String} (horigin : origin ∈ Section.all)
    (h : Relation.ReflTransGen (Leads doc enters) origin list) :
  Listing doc enters list
  := by
  induction h with
  | refl => exact .inl horigin
  | tail _ hleads ih =>
    obtain ⟨hlisted, henters⟩ := hleads
    exact .inr ⟨ih.reached (mem_moduleList_iff.mpr hlisted), henters⟩

/-- What is reached is what is listed at the end of a way from a section. -/
theorem reached_iff_listedBelow :
  Reached doc enters reference ↔ ListedBelow doc enters reference
  := by
  constructor
  · intro h
    induction h with
    | @inSection list _ hlist hlisted =>
      use list, hlist, list, .refl
      apply mem_moduleList_iff.mp hlisted
    | @inGroup group _ _ henters hlisted ih =>
      obtain ⟨origin, horigin, list, hway, hgroup⟩ := ih
      use origin, horigin, group, hway.tail ⟨hgroup, henters⟩
      apply mem_moduleList_iff.mp hlisted
  · rintro ⟨origin, horigin, list, hway, hlisted⟩
    apply (listing_of_leads horigin hway).reached
    apply mem_moduleList_iff.mpr hlisted

end StatusBar.Placement
