import StatusBar.Proofs.Document.Readings
import StatusBar.Proofs.Document.Yields

/-!
# Documents in another order

Two documents that differ only in the order of the members inside their objects.  Members
are found by their names, so the two give the same to whatever looks into them:
`reordered_object_iff` says of two objects that they are reordered just if each name gives
reordered values, and the changes of objects respect it.
-/

namespace StatusBar

/-! ### Related options -/

section

variable {α β γ δ : Type} {related : α → β → Prop} {value? : Option α} {value'? : Option β}
  (h : Option.Rel related value? value'?)

include h

theorem isSome_eq_of_rel :
  value?.isSome = value'?.isSome
  := by
  cases h <;> rfl

theorem getD_rel {default : α} {default' : β} (hdefault : related default default') :
  related (value?.getD default) (value'?.getD default')
  := by
  cases h with
  | none => exact hdefault
  | some h => exact h

theorem map_rel {related' : γ → δ → Prop} {f : α → γ} {f' : β → δ}
    (hf : ∀ value value', related value value' → related' (f value) (f' value')) :
  Option.Rel related' (value?.map f) (value'?.map f')
  := by
  cases h with
  | none => exact .none
  | some h => exact .some (hf _ _ h)

end

namespace Document

/-- The same document but for the order of members inside objects, at any depth.  An object
has each of its names once. -/
inductive Reordered : Document → Document → Prop where
  | null : Reordered .null .null
  | bool (value : Bool) : Reordered (.bool value) (.bool value)
  | number (value : Number) : Reordered (.number value) (.number value)
  | string (value : String) : Reordered (.string value) (.string value)
  | array {items items' : List Document} (same_length : items.length = items'.length)
    (each : ∀ pair ∈ items.zip items', Reordered pair.1 pair.2) :
    Reordered (.array items) (.array items')
  | object {members members' : Members} (distinct : members.Distinct)
    (names : (members.map Prod.fst).Perm (members'.map Prod.fst))
    (values : ∀ name value value', (name, value) ∈ members → (name, value') ∈ members' →
      Reordered value value') :
    Reordered (.object members) (.object members')

/-- A regular document is in its own order. -/
theorem Regular.reordered_self {doc : Document} (h : doc.Regular) :
  doc.Reordered doc
  := by
  induction h with
  | null => exact .null
  | bool value => exact .bool value
  | number value => exact .number value
  | string value => exact .string value
  | @array items _ ih =>
    apply Reordered.array rfl
    intro pair hpair
    rw [List.zip_eq_zipWith, List.zipWith_self] at hpair
    obtain ⟨item, hitem, rfl⟩ := List.mem_map.mp hpair
    exact ih item hitem
  | @object members distinct _ ih =>
    apply Reordered.object distinct (.refl _)
    intro name value value' hvalue hvalue'
    have hlookup := (distinct.lookup_eq_some_iff name value).mpr hvalue
    rw [(distinct.lookup_eq_some_iff name value').mpr hvalue'] at hlookup
    cases hlookup
    exact ih (name, value) hvalue

/-! ### What is found in them -/

variable {doc doc' : Document} {members members' : Members}

/-- Two objects are in another order just if each name has reordered values in both, or no
value. -/
theorem reordered_object_iff :
  Reordered (.object members) (.object members')
    ↔ members.Distinct ∧ members'.Distinct
      ∧ ∀ name, Option.Rel Reordered (members.lookup name) (members'.lookup name)
  := by
  constructor
  · rintro (_ | _ | _ | _ | _ | ⟨distinct, names, values⟩)
    have distinct' : members'.Distinct := names.nodup_iff.mp distinct
    use distinct, distinct'
    intro name
    -- The names are the same, so a name is found on both sides or on neither.
    have hnames : (members.lookup name).isSome ↔ (members'.lookup name).isSome := by
      rw [← Members.mem_names_iff, ← Members.mem_names_iff]
      exact names.mem_iff
    cases hvalue : members.lookup name with
    | none =>
      rw [hvalue] at hnames
      rw [Option.not_isSome_iff_eq_none.mp (hnames.not.mp Bool.false_ne_true)]
      exact .none
    | some value =>
      rw [hvalue] at hnames
      obtain ⟨value', hvalue'⟩ := Option.isSome_iff_exists.mp (hnames.mp rfl)
      rw [hvalue']
      apply Option.Rel.some
      apply values name
      · exact (distinct.lookup_eq_some_iff name value).mp hvalue
      · exact (distinct'.lookup_eq_some_iff name value').mp hvalue'
  · rintro ⟨distinct, distinct', hlookup⟩
    apply Reordered.object distinct
    · apply (List.perm_ext_iff_of_nodup distinct distinct').mpr
      intro name
      rw [Members.mem_names_iff, Members.mem_names_iff, isSome_eq_of_rel (hlookup name)]
    · intro name value value' hvalue hvalue'
      have hname := hlookup name
      rw [(distinct.lookup_eq_some_iff name value).mpr hvalue,
        (distinct'.lookup_eq_some_iff name value').mpr hvalue'] at hname
      cases hname with
      | some h => exact h

/-- Members may be put into any order. -/
theorem Regular.reordered_of_perm (h : Regular (.object members)) (hperm : members.Perm members') :
  Reordered (.object members) (.object members')
  := by
  obtain ⟨distinct, -, hlookup⟩ := reordered_object_iff.mp h.reordered_self
  apply reordered_object_iff.mpr
  use distinct, distinct.perm hperm
  intro name
  rw [← distinct.lookup_perm hperm]
  apply hlookup name

namespace Reordered

theorem get? (h : doc.Reordered doc') (key : String) :
  Option.Rel Reordered (doc.get? key) (doc'.get? key)
  := by
  cases doc with
  | object members =>
    obtain _ | _ | _ | _ | _ | ⟨distinct, names, values⟩ := h
    exact (reordered_object_iff.mp (.object distinct names values)).2.2 key
  | _ =>
    cases h
    exact .none

theorem get (h : doc.Reordered doc') (key : String) :
  (doc.get key).Reordered (doc'.get key)
  := getD_rel (h.get? key) .null

/-- Texts, truth values and integers do not depend on the order of members. -/
theorem readsAs (h : doc.Reordered doc') :
  doc.ReadsAs doc'
  := by
  induction h with
  | @array items items' same_length each ih =>
    have hitems : List.Forall₂ ReadsAs items items' :=
      List.forall₂_iff_zip.mpr ⟨same_length, fun h => ih _ h⟩
    apply ReadsAs.array
    clear same_length each ih
    induction hitems with
    | nil => rfl
    | cons hitem _ ih => rw [List.filterMap_cons, List.filterMap_cons, hitem.text?_eq, ih]
  | object => exact .object _ _
  | _ => exact .refl _

/-! ### Changes of objects -/

/-- A name may be given reordered values. -/
theorem insert (h : Reordered (.object members) (.object members')) {value value' : Document}
    (hvalue : value.Reordered value') (key : String) :
  Reordered (.object (Members.insert key value members))
    (.object (Members.insert key value' members'))
  := by
  obtain ⟨distinct, distinct', hlookup⟩ := reordered_object_iff.mp h
  apply reordered_object_iff.mpr
  use distinct.insert key value, distinct'.insert key value'
  intro name
  rw [Members.lookup_insert, Members.lookup_insert]
  split
  · exact .some hvalue
  · exact hlookup name

/-- Taking a member out by moving the last one into its place leaves the members that there
are without it, in some order. -/
theorem swapRemove (h : Regular (.object members)) (key : String) :
  Reordered (.object (Members.swapRemove key members))
    (.object (members.filter fun member => member.1 ≠ key))
  := by
  obtain ⟨distinct, -, hlookup⟩ := reordered_object_iff.mp h.reordered_self
  apply reordered_object_iff.mpr
  use distinct.swapRemove key, (distinct.swapRemove key).perm (distinct.swapRemove_perm key)
  intro name
  rw [distinct.lookup_swapRemove, Members.lookup_filter]
  split
  · exact .none
  · exact hlookup name

end Reordered

end Document

end StatusBar
