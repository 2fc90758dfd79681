import StatusBar.Proofs.Include.Loading

/-!
# Trimmed includes

Files whose `include` members are rid of names under which nothing can be included.  They
amount to the same objects, and so the configuration to the same bars.
-/

namespace StatusBar

/-- The path that an include names does not depend on the files. -/
theorem Environment.expand_congr {env env' : Environment} (h : env'.home = env.home) :
  env'.expand = env.expand
  := by
  funext base text
  rw [expand, expand, h]

namespace Include

/-- Nothing can be included under a name: its file is missing, or cannot be read, or holds no
object. -/
def Unusable (env : Environment) (base : Path) (name : String) : Prop :=
  ∀ members, env.readDocument (env.expand base name) ≠ .ok (.object members)

theorem Unusable.included?_eq_none {env : Environment} {base : Path} {name : String}
    (h : Unusable env base name) (chain : List Path) :
  included? env base chain name = none
  := by
  rw [included?]
  split
  case isTrue => rfl
  case isFalse =>
    split
    case h_1 hread => exact absurd hread (h _)
    case h_2 => rfl

/-- Names of which some that are unusable are dropped. -/
inductive Dropped (unusable : String → Prop) : List String → List String → Prop where
  | nil : Dropped unusable [] []
  | keep (name : String) {names names' : List String} (h : Dropped unusable names names') :
    Dropped unusable (name :: names) (name :: names')
  | drop {name : String} {names names' : List String} (hname : unusable name)
    (h : Dropped unusable names names') :
    Dropped unusable (name :: names) names'

/-- An object that includes less, by names that are unusable; anything else stays. -/
inductive TrimmedItem (unusable : String → Prop) : Document → Document → Prop where
  | same (doc : Document) : TrimmedItem unusable doc doc
  | object {members : Members} {value value' : Document} (hvalue : members.lookup key = some value)
    (hnames : Dropped unusable (names value) (names value')) :
    TrimmedItem unusable (.object members) (.object (members.insert key value'))

/-- The root of a file that includes less, as an object or in its items. -/
inductive Trimmed (unusable : String → Prop) : Document → Document → Prop where
  | item {doc doc' : Document} (h : TrimmedItem unusable doc doc') : Trimmed unusable doc doc'
  | array {items items' : List Document}
    (h : List.Forall₂ (TrimmedItem unusable) items items') :
    Trimmed unusable (.array items) (.array items')

/-- The same files but that some include less. -/
structure TrimmedFiles (env env' : Environment) : Prop where
  home : env'.home = env.home
  canonical : ∀ path, env'.files.canonical path = env.files.canonical path
  unread : ∀ path error, env.readDocument path = .error error →
    env'.readDocument path = .error error
  read : ∀ path doc, env.readDocument path = .ok doc →
    ∃ base doc', path.parent? = some base ∧ env'.readDocument path = .ok doc'
      ∧ Trimmed (Unusable env base) doc doc'

variable {unusable : String → Prop}

theorem Dropped.refl (names : List String) :
  Dropped unusable names names
  := by
  induction names with
  | nil => exact .nil
  | cons name _ ih => exact .keep name ih

/-- What amounts to nothing may be dropped. -/
theorem Dropped.filterMap_eq {α : Type} {f f' : String → Option α} {names names' : List String}
    (h : Dropped unusable names names') (hsame : ∀ name, f' name = f name)
    (hunusable : ∀ name, unusable name → f name = none) :
  names'.filterMap f' = names.filterMap f
  := by
  induction h with
  | nil => rfl
  | keep name _ ih => rw [List.filterMap_cons, List.filterMap_cons, hsame, ih]
  | drop hname _ ih => rw [List.filterMap_cons_none (hunusable _ hname), ih]

namespace TrimmedItem

/-- A trimmed object is an object. -/
theorem exists_object {members : Members} {doc' : Document}
    (h : TrimmedItem unusable (.object members) doc') :
  ∃ members', doc' = .object members'
  := by
  cases h with
  | same => exact ⟨members, rfl⟩
  | object => exact ⟨_, rfl⟩

theorem isObject_eq {doc doc' : Document} (h : TrimmedItem unusable doc doc') :
  doc'.isObject = doc.isObject
  := by
  cases h <;> rfl

/-- Without what it includes, a trimmed object is the same. -/
theorem swapRemove_eq {members members' : Members}
    (h : TrimmedItem unusable (.object members) (.object members')) :
  members'.swapRemove key = members.swapRemove key
  := by
  cases h with
  | same => rfl
  | object => apply Members.swapRemove_insert

/-- It includes something if it did before, and out of the same names. -/
theorem exists_lookup {members members' : Members} {value : Document}
    (h : TrimmedItem unusable (.object members) (.object members'))
    (hvalue : members.lookup key = some value) :
  ∃ value', members'.lookup key = some value' ∧ Dropped unusable (names value) (names value')
  := by
  cases h with
  | same => exact ⟨value, hvalue, .refl _⟩
  | @object _ old value' hold hnames =>
    rw [hvalue] at hold
    cases hold
    use value'
    rw [Members.lookup_insert, if_pos rfl]
    exact ⟨rfl, hnames⟩

theorem eq_of_lookup_eq_none {members members' : Members}
    (h : TrimmedItem unusable (.object members) (.object members'))
    (hnone : members.lookup key = none) :
  members' = members
  := by
  cases h with
  | same => rfl
  | object hvalue =>
    rw [hnone] at hvalue
    cases hvalue

end TrimmedItem

namespace Trimmed

theorem item_of_object {members : Members} {doc' : Document}
    (h : Trimmed unusable (.object members) doc') :
  TrimmedItem unusable (.object members) doc'
  := by
  cases h with
  | item h => exact h

theorem isObject_eq {doc doc' : Document} (h : Trimmed unusable doc doc') :
  doc'.isObject = doc.isObject
  := by
  cases h with
  | item h => exact h.isObject_eq
  | array => rfl

/-- A trimmed array has trimmed items. -/
theorem exists_items {items : List Document} {doc' : Document}
    (h : Trimmed unusable (.array items) doc') :
  ∃ items', doc' = .array items' ∧ List.Forall₂ (TrimmedItem unusable) items items'
  := by
  cases h with
  | item h =>
    cases h
    exact ⟨items, rfl, List.forall₂_same.mpr fun item _ => .same item⟩
  | array h => exact ⟨_, rfl, h⟩

end Trimmed

namespace TrimmedFiles

variable {env env' : Environment} (h : TrimmedFiles env env')

include h

/-- Under a name either nothing is included, before and after, or an object that includes no
more. -/
theorem included?_rel (base : Path) (chain : List Path) (name : String) :
  (included? env base chain name = none ∧ included? env' base chain name = none)
    ∨ ∃ path base' members members', path.parent? = some base'
      ∧ included? env base chain name = some (path, members)
      ∧ included? env' base chain name = some (path, members')
      ∧ TrimmedItem (Unusable env base') (.object members) (.object members')
  := by
  rw [included?, included?, Environment.expand_congr h.home, h.canonical]
  split
  case isTrue => exact .inl ⟨rfl, rfl⟩
  case isFalse =>
    cases hread : env.readDocument (env.expand base name) with
    | error error =>
      rw [h.unread _ error hread]
      exact .inl ⟨rfl, rfl⟩
    | ok doc =>
      obtain ⟨base', doc', hbase', hread', htrimmed⟩ := h.read _ doc hread
      rw [hread']
      cases doc with
      | object members =>
        have hitem := htrimmed.item_of_object
        obtain ⟨members', rfl⟩ := hitem.exists_object
        exact .inr ⟨_, base', members, members', hbase', rfl, rfl, hitem⟩
      | _ =>
        have hobject := htrimmed.isObject_eq
        cases doc' with
        | object members' => cases hobject
        | _ => exact .inl ⟨rfl, rfl⟩

/-- Objects that are trimmed amount to the same. -/
theorem value_resolve (remaining : Nat) {base : Path} {chain : List Path}
    {members members' : Members}
    (hmembers : TrimmedItem (Unusable env base) (.object members) (.object members')) :
  (resolve env' remaining base chain members').value
    = (resolve env remaining base chain members).value
  := by
  induction remaining generalizing base chain members members' with
  | zero =>
    cases hkey : members.lookup key with
    | none =>
      rw [hmembers.eq_of_lookup_eq_none hkey, resolve_of_none hkey, resolve_of_none hkey]
    | some value =>
      obtain ⟨value', hkey', -⟩ := hmembers.exists_lookup hkey
      rw [value_resolve_zero hkey, value_resolve_zero hkey', hmembers.swapRemove_eq]
  | succ remaining ih =>
    cases hkey : members.lookup key with
    | none =>
      rw [hmembers.eq_of_lookup_eq_none hkey, resolve_of_none hkey, resolve_of_none hkey]
    | some value =>
      obtain ⟨value', hkey', hnames⟩ := hmembers.exists_lookup hkey
      have hsame : ∀ name, (fetch env' (resolve env' remaining) base chain name).value
          = (fetch env (resolve env remaining) base chain name).value := by
        intro name
        rw [value_fetch, value_fetch]
        obtain ⟨hnone, hnone'⟩ | ⟨path, base', object, object', hbase', hobject, hobject', htrimmed⟩
          := h.included?_rel base chain name
        · rw [hnone, hnone']
          rfl
        · simp only [hobject, hobject', Option.map_some, hbase', Option.getD_some, h.canonical,
            ih htrimmed]
      have hunusable : ∀ name, Unusable env base name →
          (fetch env (resolve env remaining) base chain name).value = none := by
        intro name hname
        rw [value_fetch, hname.included?_eq_none]
        rfl
      -- The names that are left yield the same objects, and those that are dropped yielded none.
      rw [value_resolve_succ hkey, value_resolve_succ hkey', hmembers.swapRemove_eq,
        hnames.filterMap_eq hsame hunusable]

/-- Trimmed items of a root amount to the same. -/
theorem value_resolveRoot {path base : Path} {doc doc' : Document}
    (hbase : path.parent? = some base) (hdoc : TrimmedItem (Unusable env base) doc doc') :
  (resolveRoot env' path doc').value = (resolveRoot env path doc).value
  := by
  cases doc with
  | object members =>
    obtain ⟨members', rfl⟩ := hdoc.exists_object
    rw [resolveRoot, resolveRoot, hbase, h.canonical, Logged.value_map, Logged.value_map,
      Option.getD_some, h.value_resolve _ hdoc]
  | _ =>
    cases hdoc
    rfl

theorem value_resolveFile {path base : Path} {root root' : Document}
    (hbase : path.parent? = some base) (hroot : Trimmed (Unusable env base) root root') :
  (resolveFile env' path root').value = (resolveFile env path root).value
  := by
  cases root with
  | array items =>
    obtain ⟨items', rfl, hitems⟩ := hroot.exists_items
    rw [resolveFile, resolveFile, Logged.value_map, Logged.value_map, Logged.value_each,
      Logged.value_each]
    congr 1
    clear hroot
    induction hitems with
    | nil => rfl
    | cons hitem _ ih => rw [List.map_cons, List.map_cons, h.value_resolveRoot hbase hitem, ih]
  | object members =>
    have hitem := hroot.item_of_object
    obtain ⟨members', rfl⟩ := hitem.exists_object
    exact h.value_resolveRoot hbase hitem
  | _ =>
    obtain ⟨⟨⟩⟩ := hroot
    rfl

end TrimmedFiles

end Include

/-- Files that include less, by names that are unusable, give the same bars. -/
theorem Loaded.value_ofFile_trimmed {env env' : Environment} (h : Include.TrimmedFiles env env')
    (path : Path) :
  (ofFile env' path).value = (ofFile env path).value
  := by
  cases hread : env.readDocument path with
  | error error =>
    rw [value_ofFile_of_error hread, value_ofFile_of_error (h.unread path error hread)]
  | ok root =>
    obtain ⟨base, root', hbase, hread', htrimmed⟩ := h.read path root hread
    rw [value_ofFile_of_ok hread, value_ofFile_of_ok hread', ofDocument_eq, ofDocument_eq,
      Logged.value_bind, Logged.value_bind, h.value_resolveFile hbase htrimmed]

end StatusBar
