import StatusBar.Mode
import StatusBar.Proofs.Document.Reordered

/-!
# Merged tables

What a table holds after an object is merged into it, by names: what a member says is put
onto what the table holds, whatever the place of the member.  So an object in another order
merges into the same table.
-/

namespace StatusBar

namespace Table

variable {α : Type}

/-- A name that is given a value has it, and every other name keeps its own. -/
theorem get?_insert (table : Table α) (key : String) (value : α) (name : String) :
  (table.insert key value).get? name = if name = key then some value else table.get? name
  := get?_modify table key _ name

/-- An update of another name may come before or after. -/
theorem modify_insert (table : Table α) {key key' : String} (hne : key' ≠ key) (value : α)
    (f : Option α → α) :
  (table.insert key value).modify key' f = (table.modify key' f).insert key value
  := by
  apply ext
  intro name
  rw [get?_modify, get?_insert, get?_insert, get?_insert, get?_modify, if_neg hne]
  by_cases hname : name = key
  · rw [hname, if_neg hne.symm, if_pos rfl, if_pos rfl]
  · rw [if_neg hname, if_neg hname]

/-- To give a name its own value does nothing. -/
theorem insert_eq_self_iff (table : Table α) (key : String) (value : α) :
  table.insert key value = table ↔ table.get? key = some value
  := by
  constructor
  · intro h
    rw [← h, get?_insert, if_pos rfl]
  · intro h
    apply ext
    intro name
    rw [get?_insert]
    by_cases hname : name = key
    · rw [if_pos hname, hname, h]
    · rw [if_neg hname]

variable [Decode α]

/-- An object with different names updates what its members name, and leaves the rest. -/
theorem get?_update {members : Members} (h : members.Distinct) (table : Table α)
    (name : String) :
  (Decode.update (.object members) table).get? name
    = ((members.lookup name).map fun value =>
        Decode.update value ((table.get? name).getD Decode.initial)).or (table.get? name)
  := by
  change (members.foldl _ table).get? name = _
  induction members generalizing table with
  | nil => rfl
  | cons member members ih =>
    obtain ⟨key, value⟩ := member
    obtain ⟨hkey, h⟩ := List.nodup_cons.mp h
    rw [List.foldl_cons, ih h, get?_modify, Members.lookup_cons]
    by_cases hname : name = key
    · have hnone : members.lookup name = none := by
        apply Option.not_isSome_iff_eq_none.mp
        rw [← Members.mem_names_iff, hname]
        exact hkey
      rw [hnone, if_pos hname, if_pos hname, hname]
      rfl
    · rw [if_neg hname, if_neg hname]

/-- Objects in another order merge into the same table, if their values are read alike. -/
theorem update_reordered {doc doc' : Document} (h : doc.Reordered doc')
    (hvalue : ∀ value value' : Document, value.Reordered value' →
      ∀ old : α, Decode.update value old = Decode.update value' old) (table : Table α) :
  Decode.update doc table = Decode.update doc' table
  := by
  cases doc with
  | object members =>
    obtain _ | _ | _ | _ | _ | ⟨distinct, names, values⟩ := h
    obtain ⟨distinct, distinct', hlookup⟩ :=
      Document.reordered_object_iff.mp (.object distinct names values)
    apply ext
    intro name
    rw [get?_update distinct, get?_update distinct']
    have hname := hlookup name
    generalize members.lookup name = value? at hname
    generalize List.lookup name _ = value'? at hname
    cases hname with
    | none => rfl
    | some h => rw [Option.map_some, Option.map_some, hvalue _ _ h]
  | _ =>
    cases h
    rfl

end Table

/-- A mode is what is read from the members that describe it. -/
theorem Mode.update_congr {doc doc' : Document} (h : doc.ReadsAs doc')
    (hmembers : ∀ key, (doc.get key).ReadsAs (doc'.get key)) (mode : Mode) :
  update doc mode = update doc' mode
  := by
  rw [update, update, h.isObject_eq, layer?, layer?, (hmembers "layer").text?_eq]
  simp only [Decode.update, (hmembers _).bool?_eq]

/-- The mode table of a document does not depend on the order of members. -/
theorem ModeTable.resolve_reordered {doc doc' : Document} (h : doc.Reordered doc') :
  resolve doc = resolve doc'
  := by
  have hmode : ∀ value value' : Document, value.Reordered value' →
      ∀ mode, Mode.update value mode = Mode.update value' mode := by
    intro value value' h mode
    apply Mode.update_congr h.readsAs
    intro key
    apply (h.get key).readsAs
  rw [resolve, resolve, Table.update_reordered (h.get "modes") hmode]
  congr
  funext mode?
  apply hmode doc doc' h

end StatusBar
