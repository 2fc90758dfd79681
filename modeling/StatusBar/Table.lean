/-!
# Tables

A finite map from names to values.  The entries stand in ascending order of their names,
each name once, so two tables that give the same value to every name are the same table.
`get?` is the view of a table: `get?_modify` says what an update does to it, and `ext`
that nothing else can be told about it.
-/

namespace StatusBar

namespace Entries

variable {α : Type}

/-- Set the value of `key`, given its value so far, in an ascending list of entries. -/
def modify (key : String) (f : Option α → α) : List (String × α) → List (String × α)
  | [] => [(key, f none)]
  | (k, v) :: rest =>
    if key < k then
      (key, f none) :: (k, v) :: rest
    else if key = k then
      (k, f (some v)) :: rest
    else
      (k, v) :: modify key f rest

/-- The names of an updated list are the old ones and the updated one. -/
theorem mem_modify {key : String} {f : Option α → α} {entries : List (String × α)}
    {entry : String × α} (h : entry ∈ modify key f entries) :
  entry.1 = key ∨ entry ∈ entries
  := by
  induction entries with
  | nil => simp_all [modify]
  | cons head rest ih =>
    obtain ⟨k, v⟩ := head
    rw [modify] at h
    split at h
    · grind
    · split at h
      · grind
      · grind

/-- An update keeps the names ascending. -/
theorem pairwise_modify {key : String} {f : Option α → α} {entries : List (String × α)}
    (h : entries.Pairwise (·.1 < ·.1)) :
  (modify key f entries).Pairwise (·.1 < ·.1)
  := by
  induction entries with
  | nil => simp [modify]
  | cons head rest ih =>
    obtain ⟨k, v⟩ := head
    obtain ⟨hk, hrest⟩ := List.pairwise_cons.mp h
    rw [modify]
    split
    case isTrue hlt =>
      apply List.pairwise_cons.mpr ⟨_, h⟩
      intro entry hentry
      cases hentry with
      | head => exact hlt
      | tail _ hentry => exact String.lt_trans hlt (hk entry hentry)
    case isFalse hge =>
      split
      · exact List.pairwise_cons.mpr ⟨hk, hrest⟩
      case isFalse hne =>
        apply List.pairwise_cons.mpr ⟨_, ih hrest⟩
        intro entry hentry
        rcases mem_modify hentry with heq | hmem
        · have hle := String.not_lt.mp hge
          rcases Decidable.em (k < key) with hlt | hnlt
          · exact heq ▸ hlt
          · exact absurd (String.le_antisymm (String.not_lt.mp hnlt) hle) hne
        · exact hk entry hmem

/-- A name below all names of a list has no value in it. -/
theorem lookup_eq_none_of_lt {key : String} {entries : List (String × α)}
    (h : ∀ entry ∈ entries, key < entry.1) :
  entries.lookup key = none
  := by
  apply List.lookup_eq_none_iff.mpr
  intro entry hentry
  have hlt := h entry hentry
  simp only [bne_iff_ne]
  intro heq
  exact String.lt_irrefl _ (heq ▸ hlt)

/-- An update sets the value of its name and leaves the others. -/
theorem lookup_modify {key : String} {f : Option α → α} {entries : List (String × α)}
    (h : entries.Pairwise (·.1 < ·.1)) (k : String) :
  (modify key f entries).lookup k
    = if k = key then some (f (entries.lookup key)) else entries.lookup k
  := by
  induction entries with
  | nil =>
    rw [modify, List.lookup_cons, List.lookup_nil, List.lookup_nil]
    by_cases hk : k = key
    · rw [hk, beq_self_eq_true, if_pos rfl]
    · rw [beq_eq_false_iff_ne.mpr hk, if_neg hk]
  | cons head rest ih =>
    obtain ⟨name, value⟩ := head
    obtain ⟨hname, hrest⟩ := List.pairwise_cons.mp h
    rw [modify]
    split
    case isTrue hlt =>
      have hnone : ((name, value) :: rest).lookup key = none := by
        apply lookup_eq_none_of_lt
        intro entry hentry
        cases hentry with
        | head => exact hlt
        | tail _ hentry => exact String.lt_trans hlt (hname entry hentry)
      rw [List.lookup_cons, hnone]
      grind
    case isFalse hge =>
      split
      · grind
      · grind

/-- Two ascending lists that give the same values are the same. -/
theorem eq_of_lookup_eq {entries entries' : List (String × α)}
    (h : entries.Pairwise (·.1 < ·.1)) (h' : entries'.Pairwise (·.1 < ·.1))
    (heq : ∀ key, entries.lookup key = entries'.lookup key) :
  entries = entries'
  := by
  induction entries generalizing entries' with
  | nil =>
    cases entries' with
    | nil => rfl
    | cons head rest =>
      obtain ⟨k, v⟩ := head
      simpa [List.lookup_cons] using heq k
  | cons head rest ih =>
    cases entries' with
    | nil => simpa [List.lookup_cons] using heq head.1
    | cons head' rest' =>
      obtain ⟨k, v⟩ := head
      obtain ⟨k', v'⟩ := head'
      obtain ⟨hk, hrest⟩ := List.pairwise_cons.mp h
      obtain ⟨hk', hrest'⟩ := List.pairwise_cons.mp h'
      have hkk : k = k' := by
        apply String.le_antisymm
        · apply String.not_lt.mp
          intro hlt
          have hnone : ((k, v) :: rest).lookup k' = none := by
            apply lookup_eq_none_of_lt
            intro entry hentry
            cases hentry with
            | head => exact hlt
            | tail _ hentry => exact String.lt_trans hlt (hk entry hentry)
          simpa [hnone] using heq k'
        · apply String.not_lt.mp
          intro hlt
          have hnone : ((k', v') :: rest').lookup k = none := by
            apply lookup_eq_none_of_lt
            intro entry hentry
            cases hentry with
            | head => exact hlt
            | tail _ hentry => exact String.lt_trans hlt (hk' entry hentry)
          simpa [hnone] using (heq k).symm
      subst hkk
      have hv : v = v' := by simpa using heq k
      subst hv
      congr 1
      apply ih hrest hrest'
      intro key
      by_cases hkey : key = k
      · subst hkey
        rw [lookup_eq_none_of_lt hk, lookup_eq_none_of_lt hk']
      · have hbeq : (key == k) = false := beq_eq_false_iff_ne.mpr hkey
        simpa [List.lookup_cons, hbeq] using heq key

end Entries

/-- A finite map from names to values, its entries in ascending order of the names. -/
structure Table (α : Type) where
  entries : List (String × α)
  ascending : entries.Pairwise (·.1 < ·.1)

namespace Table

variable {α : Type}

/-- The table without entries. -/
def empty : Table α :=
  ⟨[], .nil⟩

/-- The value of a name. -/
def get? (table : Table α) (key : String) : Option α :=
  table.entries.lookup key

/-- Whether a name has a value. -/
def contains (table : Table α) (key : String) : Bool :=
  (table.get? key).isSome

/-- The names, in ascending order. -/
def keys (table : Table α) : List String :=
  table.entries.map (·.1)

/-- Set the value of a name, given its value so far. -/
def modify (table : Table α) (key : String) (f : Option α → α) : Table α :=
  ⟨Entries.modify key f table.entries, Entries.pairwise_modify table.ascending⟩

theorem get?_modify (table : Table α) (key : String) (f : Option α → α) (k : String) :
  (table.modify key f).get? k = if k = key then some (f (table.get? key)) else table.get? k
  := Entries.lookup_modify table.ascending k

/-- Tables that give the same value to every name are the same. -/
theorem ext {table table' : Table α} (h : ∀ key, table.get? key = table'.get? key) :
  table = table'
  := by
  obtain ⟨entries, ascending⟩ := table
  obtain ⟨entries', ascending'⟩ := table'
  congr
  exact Entries.eq_of_lookup_eq ascending ascending' h

/-- Give a name this value. -/
def insert (table : Table α) (key : String) (value : α) : Table α :=
  table.modify key fun _ => value

/-- The table of a list of names and values. -/
def ofList (entries : List (String × α)) : Table α :=
  entries.foldl (fun table entry => table.insert entry.1 entry.2) empty

instance : Inhabited (Table α) := ⟨empty⟩

end Table

end StatusBar
