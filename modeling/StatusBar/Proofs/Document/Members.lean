import Mathlib.Data.List.Nodup
import StatusBar.Document.Basic

/-!
# Members of objects

Members with different names are found by their names wherever they stand: giving a value,
taking a member out and adding those that are missing keep the names different, and change
only what they are about.
-/

namespace StatusBar.Members

/-- No two members have the same name. -/
def Distinct (members : Members) : Prop :=
  (members.map Prod.fst).Nodup

instance : DecidablePred Distinct := fun members =>
  inferInstanceAs (Decidable (members.map Prod.fst).Nodup)

variable {members members' : Members}

theorem Distinct.nil :
  Distinct []
  := List.nodup_nil

theorem Distinct.cons {name : String} {value : Document} (h : members.Distinct)
    (hname : name ∉ members.map Prod.fst) :
  Distinct ((name, value) :: members)
  := List.nodup_cons.mpr ⟨hname, h⟩

theorem Distinct.perm (h : members.Distinct) (hperm : members.Perm members') :
  members'.Distinct
  := (hperm.map Prod.fst).nodup_iff.mp h

/-- A member is found by its name. -/
theorem Distinct.lookup_eq_some_iff (h : members.Distinct) (name : String) (value : Document) :
  members.lookup name = some value ↔ (name, value) ∈ members
  := by
  induction members with
  | nil => simp
  | cons member members ih =>
    obtain ⟨name', value'⟩ := member
    obtain ⟨hname, h⟩ := List.nodup_cons.mp h
    rw [List.lookup_cons, List.mem_cons, Prod.mk.injEq]
    by_cases heq : name = name'
    · have hmem : (name, value) ∉ members := by
        intro hmem
        apply hname
        rw [← heq]
        apply List.mem_map_of_mem hmem
      rw [heq, beq_self_eq_true]
      rw [heq] at hmem
      simp [hmem, eq_comm]
    · rw [beq_eq_false_iff_ne.mpr heq]
      simp [heq, ih h]

/-- The names of members are those that are found. -/
theorem mem_names_iff (members : Members) (name : String) :
  name ∈ members.map Prod.fst ↔ (members.lookup name).isSome
  := by
  induction members with
  | nil => simp
  | cons member members ih =>
    obtain ⟨name', value⟩ := member
    rw [List.map_cons, List.mem_cons, List.lookup_cons, ih]
    by_cases heq : name = name'
    · simp [heq]
    · simp [heq, beq_eq_false_iff_ne.mpr heq]

theorem lookup_eq_none_iff (members : Members) (name : String) :
  members.lookup name = none ↔ name ∉ members.map Prod.fst
  := by
  rw [mem_names_iff, Bool.not_eq_true, Option.isSome_eq_false_iff, Option.isNone_iff_eq_none]

/-- The order of members does not matter. -/
theorem Distinct.lookup_perm (h : members.Distinct) (hperm : members.Perm members')
    (name : String) :
  members.lookup name = members'.lookup name
  := by
  apply Option.ext
  intro value
  rw [h.lookup_eq_some_iff, (h.perm hperm).lookup_eq_some_iff, hperm.mem_iff]

/-! ### Giving a value -/

theorem mem_names_insert (key : String) (value : Document) (name : String) :
  name ∈ (insert key value members).map Prod.fst ↔ name = key ∨ name ∈ members.map Prod.fst
  := by
  induction members with
  | nil => simp [insert]
  | cons member members ih =>
    obtain ⟨name', value'⟩ := member
    rw [insert]
    by_cases heq : name' = key
    · simp [heq]
    · rw [if_neg heq, List.map_cons, List.mem_cons, ih, List.map_cons, List.mem_cons]
      apply or_left_comm

/-- The first member is found by its name, and does not hide any other. -/
theorem lookup_cons (name name' : String) (value : Document) (members : Members) :
  List.lookup name ((name', value) :: members)
    = if name = name' then some value else members.lookup name
  := by
  by_cases hname : name = name'
  · rw [hname, List.lookup_cons_self, if_pos rfl]
  · rw [List.lookup_cons, beq_eq_false_iff_ne.mpr hname, if_neg hname]

/-- A name that is given a value has it, and every other name is found as before. -/
theorem lookup_insert (members : Members) (key : String) (value : Document) (name : String) :
  (insert key value members).lookup name
    = if name = key then some value else members.lookup name
  := by
  induction members with
  | nil => exact lookup_cons name key value []
  | cons member members ih =>
    obtain ⟨name', value'⟩ := member
    rw [insert]
    by_cases heq : name' = key
    · rw [if_pos heq, lookup_cons, lookup_cons, heq]
      by_cases hname : name = key
      · rw [if_pos hname, if_pos hname]
      · rw [if_neg hname, if_neg hname, if_neg hname]
    · rw [if_neg heq, lookup_cons, lookup_cons, ih]
      by_cases hname : name = name'
      · rw [hname, if_pos rfl, if_neg heq, if_pos rfl]
      · rw [if_neg hname, if_neg hname]

/-- The last value that a name is given counts. -/
theorem insert_insert (members : Members) (key : String) (value value' : Document) :
  insert key value' (insert key value members) = insert key value' members
  := by
  induction members with
  | nil => simp [insert]
  | cons member members ih =>
    obtain ⟨name, old⟩ := member
    by_cases heq : name = key
    · simp [insert, heq]
    · simp [insert, heq, ih]

theorem Distinct.insert (h : members.Distinct) (key : String) (value : Document) :
  (Members.insert key value members).Distinct
  := by
  induction members with
  | nil => exact Distinct.nil.cons List.not_mem_nil
  | cons member members ih =>
    obtain ⟨name', value'⟩ := member
    obtain ⟨hname, h⟩ := List.nodup_cons.mp h
    rw [Members.insert]
    by_cases heq : name' = key
    · rw [if_pos heq]
      exact Distinct.cons h hname
    · rw [if_neg heq]
      apply (ih h).cons
      rw [mem_names_insert]
      rintro (hkey | hmem)
      · exact heq hkey
      · exact hname hmem

/-- A member that is found is the first one of its name. -/
theorem exists_of_lookup {key : String} {value : Document} (h : members.lookup key = some value) :
  ∃ before after, members = before ++ (key, value) :: after ∧ key ∉ before.map Prod.fst
  := by
  obtain ⟨before, after, hmembers, hbefore⟩ := List.lookup_eq_some_iff.mp h
  use before, after, hmembers
  intro hmem
  obtain ⟨member, hmember, rfl⟩ := List.mem_map.mp hmem
  have hne := hbefore member hmember
  rw [bne_self_eq_false] at hne
  cases hne

/-- A value is given in the place of the first one of its name. -/
theorem insert_append {key : String} {before : Members} (hbefore : key ∉ before.map Prod.fst)
    (old value : Document) (after : Members) :
  insert key value (before ++ (key, old) :: after) = before ++ (key, value) :: after
  := by
  induction before with
  | nil => simp [insert]
  | cons member before ih =>
    obtain ⟨hname, hbefore⟩ := List.ne_and_not_mem_of_not_mem_cons hbefore
    rw [List.cons_append, insert, if_neg hname.symm, ih hbefore]
    rfl

/-- Where there is none of its name, a value is given after all the others. -/
theorem insert_of_not_mem {key : String} (h : key ∉ members.map Prod.fst) (value : Document) :
  insert key value members = members ++ [(key, value)]
  := by
  induction members with
  | nil => rfl
  | cons member members ih =>
    obtain ⟨hname, h⟩ := List.ne_and_not_mem_of_not_mem_cons h
    rw [insert, if_neg hname.symm, ih h]
    rfl

/-! ### Changing a value -/

theorem names_modify (members : Members) (key : String) (f : Document → Document) :
  (modify key f members).map Prod.fst = members.map Prod.fst
  := by
  induction members with
  | nil => rfl
  | cons member members ih =>
    obtain ⟨name, value⟩ := member
    rw [modify]
    split
    · rfl
    · rw [List.map_cons, List.map_cons, ih]

theorem Distinct.foldl_modify (h : members.Distinct) (f : Document → Document)
    (names : List String) :
  Distinct (names.foldl (fun members key => modify key f members) members)
  := by
  induction names generalizing members with
  | nil => exact h
  | cons key names ih =>
    apply ih
    rw [Distinct, names_modify]
    exact h

/-- The value of one name is changed. -/
theorem lookup_modify (members : Members) (key : String) (f : Document → Document)
    (name : String) :
  (modify key f members).lookup name
    = if name = key then (members.lookup name).map f else members.lookup name
  := by
  induction members with
  | nil => simp [modify]
  | cons member members ih =>
    obtain ⟨name', value⟩ := member
    rw [modify]
    by_cases heq : name' = key
    · rw [if_pos heq, lookup_cons, lookup_cons, heq]
      by_cases hname : name = key
      · rw [if_pos hname, if_pos hname, if_pos hname, Option.map_some]
      · rw [if_neg hname, if_neg hname, if_neg hname]
    · rw [if_neg heq, lookup_cons, lookup_cons, ih]
      by_cases hname : name = name'
      · rw [hname, if_pos rfl, if_neg heq, if_pos rfl]
      · rw [if_neg hname, if_neg hname]

/-- Where a second change does nothing more, it does not matter how often a name comes. -/
theorem lookup_foldl_modify {f : Document → Document} (hf : ∀ value, f (f value) = f value)
    (names : List String) (members : Members) (name : String) :
  (names.foldl (fun members key => modify key f members) members).lookup name
    = if name ∈ names then (members.lookup name).map f else members.lookup name
  := by
  induction names generalizing members with
  | nil => simp
  | cons key names ih =>
    rw [List.foldl_cons, ih, lookup_modify]
    by_cases hname : name = key
    · have hff : f ∘ f = f := funext hf
      simp [hname, hff]
    · simp [hname]

/-- Among different names, a change reaches every member that it is for. -/
theorem Distinct.modify_eq_map (h : members.Distinct) (key : String)
    (f : Document → Document) :
  modify key f members
    = members.map fun member => (member.1, if member.1 = key then f member.2 else member.2)
  := by
  induction members with
  | nil => rfl
  | cons member members ih =>
    obtain ⟨name, value⟩ := member
    obtain ⟨hname, h⟩ := List.nodup_cons.mp h
    rw [modify, List.map_cons]
    by_cases heq : name = key
    · have hothers : members.map (fun member =>
          (member.1, if member.1 = key then f member.2 else member.2)) = members.map id := by
        apply List.map_congr_left
        intro member hmember
        have hne : member.1 ≠ key := by
          rintro rfl
          apply hname
          rw [heq]
          apply List.mem_map_of_mem hmember
        rw [if_neg hne]
        rfl
      rw [if_pos heq, if_pos heq, hothers, List.map_id]
    · rw [if_neg heq, if_neg heq, ih h]

theorem Distinct.foldl_modify_eq_map {f : Document → Document}
    (hf : ∀ value, f (f value) = f value) (h : members.Distinct) (names : List String) :
  names.foldl (fun members key => modify key f members) members
    = members.map fun member => (member.1, if member.1 ∈ names then f member.2 else member.2)
  := by
  induction names generalizing members with
  | nil => simp
  | cons key names ih =>
    have hmodify : (modify key f members).Distinct := by
      rw [Distinct, names_modify]
      exact h
    rw [List.foldl_cons, ih hmodify, h.modify_eq_map, List.map_map]
    apply List.map_congr_left
    intro member _
    by_cases hkey : member.1 = key
    · simp [hkey, hf]
    · simp [hkey]

/-! ### Taking a member out -/

/-- All members stay but the one of that name, in some order. -/
theorem Distinct.swapRemove_perm (h : members.Distinct) (key : String) :
  (swapRemove key members).Perm (members.filter fun member => member.1 ≠ key)
  := by
  induction members with
  | nil => exact .nil
  | cons member members ih =>
    obtain ⟨name, value⟩ := member
    obtain ⟨hname, h⟩ := List.nodup_cons.mp h
    rw [swapRemove]
    by_cases heq : name = key
    · have hothers : members.filter (fun member => member.1 ≠ key) = members := by
        apply List.filter_eq_self.mpr
        intro member hmember
        apply decide_eq_true
        rintro rfl
        apply hname
        rw [heq]
        apply List.mem_map_of_mem hmember
      rw [if_pos heq, List.filter_cons_of_neg (by simpa using heq), hothers]
      cases hlast : members.getLast? with
      | none => rw [List.getLast?_eq_none_iff.mp hlast]
      | some last =>
        obtain ⟨others, rfl⟩ := List.getLast?_eq_some_iff.mp hlast
        rw [List.dropLast_concat]
        apply (List.perm_append_singleton last others).symm
    · rw [if_neg heq, List.filter_cons_of_pos (by simpa using heq)]
      apply (ih h).cons

/-- Without the members of one name, every other name is found as before. -/
theorem lookup_filter (members : Members) (key name : String) :
  (members.filter fun member => member.1 ≠ key).lookup name
    = if name = key then none else members.lookup name
  := by
  induction members with
  | nil => simp
  | cons member members ih =>
    obtain ⟨name', value⟩ := member
    by_cases hkey : name' = key
    · rw [List.filter_cons_of_neg (by simpa using hkey), ih, List.lookup_cons]
      by_cases hname : name = key
      · rw [if_pos hname, if_pos hname]
      · rw [if_neg hname, if_neg hname, hkey, beq_eq_false_iff_ne.mpr hname]
    · rw [List.filter_cons_of_pos (by simpa using hkey), List.lookup_cons, List.lookup_cons, ih]
      by_cases hname : name = name'
      · rw [hname, beq_self_eq_true, if_neg hkey, if_neg hkey]
      · rw [beq_eq_false_iff_ne.mpr hname]

theorem Distinct.swapRemove (h : members.Distinct) (key : String) :
  (Members.swapRemove key members).Distinct
  := by
  apply Distinct.perm _ (h.swapRemove_perm key).symm
  apply List.Nodup.sublist _ h
  apply List.filter_sublist.map

/-- A member that is taken out leaves the others. -/
theorem Distinct.lookup_swapRemove (h : members.Distinct) (key name : String) :
  (Members.swapRemove key members).lookup name
    = if name = key then none else members.lookup name
  := by
  rw [(h.swapRemove key).lookup_perm (h.swapRemove_perm key), lookup_filter]

/-- What a name was given does not matter once it is taken out. -/
theorem swapRemove_insert (members : Members) (key : String) (value : Document) :
  swapRemove key (insert key value members) = swapRemove key members
  := by
  induction members with
  | nil => simp [insert, swapRemove]
  | cons member members ih =>
    obtain ⟨name, old⟩ := member
    rw [insert]
    by_cases heq : name = key
    · rw [if_pos heq, swapRemove, swapRemove, if_pos heq, if_pos heq]
    · rw [if_neg heq, swapRemove, swapRemove, if_neg heq, if_neg heq, ih]

/-! ### Adding what is missing -/

theorem addMissing_nil (members : Members) :
  members.addMissing [] = members
  := rfl

theorem addMissing_cons (members : Members) (member : String × Document) (added : Members) :
  members.addMissing (member :: added)
    = (if (members.lookup member.1).isSome then members else members ++ [member]).addMissing added
  := rfl

/-- What is there already wins over what is added. -/
theorem lookup_addMissing (members added : Members) (name : String) :
  (members.addMissing added).lookup name = (members.lookup name).or (added.lookup name)
  := by
  induction added generalizing members with
  | nil => rw [addMissing_nil, List.lookup_nil, Option.or_none]
  | cons member added ih =>
    have happend : (member :: added).lookup name
        = ([member].lookup name).or (added.lookup name) := by
      rw [← List.lookup_append, List.singleton_append]
    rw [addMissing_cons, ih, happend]
    split
    case isTrue hsome =>
      by_cases hname : name = member.1
      · rw [hname, Option.or_of_isSome hsome, Option.or_of_isSome hsome]
      · have hother : [member].lookup name = none := by
          rw [List.lookup_cons, beq_eq_false_iff_ne.mpr hname, List.lookup_nil]
        rw [hother, Option.none_or]
    case isFalse => rw [List.lookup_append, Option.or_assoc]

theorem Distinct.addMissing (h : members.Distinct) (added : Members) :
  (members.addMissing added).Distinct
  := by
  induction added generalizing members with
  | nil => exact h
  | cons member added ih =>
    rw [addMissing_cons]
    apply ih
    split
    case isTrue => exact h
    case isFalse hnone =>
      apply Distinct.perm _ (List.perm_append_singleton member members).symm
      apply Distinct.cons h
      intro hmem
      obtain ⟨other, hother, hname⟩ := List.mem_map.mp hmem
      have hne := List.lookup_eq_none_iff.mp (Option.not_isSome_iff_eq_none.mp hnone) other hother
      rw [hname, bne_self_eq_false] at hne
      cases hne

/-- Of what is added one after the other, the earlier wins over the later. -/
theorem lookup_foldl_addMissing (members : Members) (addeds : List Members) (name : String) :
  (addeds.foldl addMissing members).lookup name
    = (members.lookup name).or (addeds.findSome? (·.lookup name))
  := by
  induction addeds generalizing members with
  | nil => exact (Option.or_none).symm
  | cons added addeds ih =>
    rw [List.foldl_cons, ih, lookup_addMissing, Option.or_assoc, List.findSome?_cons]
    cases added.lookup name with
    | none => rfl
    | some value => rfl

theorem Distinct.foldl_addMissing (h : members.Distinct) (addeds : List Members) :
  (addeds.foldl Members.addMissing members).Distinct
  := by
  induction addeds generalizing members with
  | nil => exact h
  | cons added addeds ih => exact ih (h.addMissing added)

end StatusBar.Members
