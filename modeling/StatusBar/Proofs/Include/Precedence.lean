import StatusBar.Document.Printer
import StatusBar.File.Tree
import StatusBar.Loader
import StatusBar.Proofs.Document.Yields

/-!
# Precedence of includes

An object with what it includes, and with what that includes in turn, has an order: the
object itself, then what it names, one after the other.  Putting its includes in gives each
name the value of the first object in this order that has one.
-/

namespace StatusBar

/-- An object that is read names its members differently. -/
theorem Environment.distinct_readDocument {env : Environment} {path : Path} {members : Members}
    (h : env.readDocument path = .ok (.object members)) :
  members.Distinct
  := by
  obtain ⟨text, -, h⟩ := Reading.bind_eq_ok.mp h
  apply Document.distinct_of_read (Reading.mapError_eq_ok.mp h)

/-- The bytes of a text are those of that text. -/
theorem fromUTF8?_toUTF8 (text : String) :
  String.fromUTF8? text.toUTF8 = some text
  := by
  have hvalid : text.toUTF8.IsValidUTF8 := text.isValidUTF8
  rw [String.fromUTF8?, dif_pos hvalid]
  rfl

/-- The document of a file is that of the text in it. -/
theorem Environment.readDocument_of_read {env : Environment} {path : Path} (text : String)
    {doc : Document} (hread : env.files.read path = .ok text.toUTF8)
    (hdoc : Relaxed.read text = .ok doc) :
  env.readDocument path = .ok doc
  := by
  have htext : env.files.readText path = .ok text := by
    apply Reading.bind_eq_ok.mpr
    use text.toUTF8, hread
    simp only [fromUTF8?_toUTF8, pure, Except.pure]
  apply Reading.bind_eq_ok.mpr
  exact ⟨text, Reading.mapError_eq_ok.mpr htext, Reading.mapError_eq_ok.mpr hdoc⟩

namespace Include

/-- The file that a name includes, and the object that it holds; none if the file is being
included already, or cannot be read, or holds no object. -/
def included? (env : Environment) (base : Path) (chain : List Path) (name : String) :
    Option (Path × Members) :=
  let path := env.expand base name
  if chain.any (env.files.canonical path).same then
    none
  else
    match env.readDocument path with
    | .ok (.object members) => some (path, members)
    | _ => none

/-- An object, then all that it includes in turn, unless too many files are being included
already. -/
def preorder (env : Environment) (base : Path) (chain : List Path) (members : Members) :
    List Members :=
  members ::
    if chain.length ≤ depthLimit then
      (names ((members.lookup key).getD .null)).flatMap fun name =>
        match included? env base chain name with
        | none => []
        | some (path, members) =>
          preorder env (path.parent?.getD base) (chain ++ [env.files.canonical path]) members
    else
      []
termination_by depthLimit + 1 - chain.length
decreasing_by
  rw [List.length_append, List.length_singleton]
  omega

variable {env : Environment} {base : Path} {chain : List Path} {members : Members}

theorem distinct_included? {name : String} {path : Path}
    (h : included? env base chain name = some (path, members)) :
  members.Distinct
  := by
  rw [included?] at h
  split at h
  · cases h
  · split at h
    case h_1 hread =>
      cases h
      apply Environment.distinct_readDocument hread
    case h_2 => cases h

/-- What a name amounts to is what its file amounts to, if it includes one. -/
theorem value_fetch (resolve : Path → List Path → Members → Logged Notice Members)
    (name : String) :
  (fetch env resolve base chain name).value
    = (included? env base chain name).map fun (path, members) =>
        (resolve (path.parent?.getD base) (chain ++ [env.files.canonical path]) members).value
  := by
  rw [fetch, included?]
  split
  · rfl
  · cases hread : env.readDocument (env.expand base name) with
    | error error => rfl
    | ok doc =>
      cases doc with
      | object members => rfl
      | _ => rfl

/-! ### The parts of a resolution -/

theorem resolve_of_none (h : members.lookup key = none) (remaining : Nat) :
  resolve env remaining base chain members = pure members
  := by
  rw [resolve, h]

theorem resolve_zero {value : Document} (h : members.lookup key = some value) :
  resolve env 0 base chain members
    = .withNotes [.warning (.includeTooDeep depthLimit depthLimit)] (members.swapRemove key)
  := by
  rw [resolve, h]

theorem value_resolve_zero {value : Document} (h : members.lookup key = some value) :
  (resolve env 0 base chain members).value = members.swapRemove key
  := by
  rw [resolve_zero h]
  rfl

theorem value_resolve_succ {value : Document} (h : members.lookup key = some value)
    (remaining : Nat) :
  (resolve env (remaining + 1) base chain members).value
    = ((names value).filterMap fun name =>
        (fetch env (resolve env remaining) base chain name).value).foldl
          Members.addMissing (members.swapRemove key)
  := by
  rw [resolve, h]
  change (((Logged.each _ _).value).filterMap id).foldl _ _ = _
  rw [Logged.value_each, List.filterMap_map]
  rfl

theorem preorder_of_none (h : members.lookup key = none) :
  preorder env base chain members = [members]
  := by
  rw [preorder, h]
  simp [names, Document.texts, Document.items]

theorem preorder_of_deep (h : depthLimit < chain.length) :
  preorder env base chain members = [members]
  := by
  rw [preorder, if_neg (Nat.not_le.mpr h)]

theorem preorder_of_some {value : Document} (h : members.lookup key = some value)
    (hlength : chain.length ≤ depthLimit) :
  preorder env base chain members
    = members :: (names value).flatMap fun name =>
        match included? env base chain name with
        | none => []
        | some (path, members) =>
          preorder env (path.parent?.getD base) (chain ++ [env.files.canonical path]) members
  := by
  rw [preorder, if_pos hlength, h]
  rfl

/-! ### What is found in a resolution -/

theorem distinct_resolve (h : members.Distinct) (remaining : Nat) :
  (resolve env remaining base chain members).value.Distinct
  := by
  cases hkey : members.lookup key with
  | none =>
    rw [resolve_of_none hkey]
    exact h
  | some value =>
    cases remaining with
    | zero =>
      rw [value_resolve_zero hkey]
      apply h.swapRemove
    | succ remaining =>
      rw [value_resolve_succ hkey]
      apply (h.swapRemove key).foldl_addMissing

/-- Nothing is left to include. -/
theorem lookup_key_resolve (h : members.Distinct) (remaining : Nat) :
  (resolve env remaining base chain members).value.lookup key = none
  := by
  induction remaining generalizing base chain members with
  | zero =>
    cases hkey : members.lookup key with
    | none =>
      rw [resolve_of_none hkey]
      exact hkey
    | some value => rw [value_resolve_zero hkey, h.lookup_swapRemove, if_pos rfl]
  | succ remaining ih =>
    cases hkey : members.lookup key with
    | none =>
      rw [resolve_of_none hkey]
      exact hkey
    | some value =>
      rw [value_resolve_succ hkey, Members.lookup_foldl_addMissing, h.lookup_swapRemove,
        if_pos rfl, Option.none_or]
      apply List.findSome?_eq_none_iff.mpr
      intro included hincluded
      obtain ⟨name, -, hfetch⟩ := List.mem_filterMap.mp hincluded
      rw [value_fetch] at hfetch
      obtain ⟨⟨path, object⟩, hobject, rfl⟩ := Option.map_eq_some_iff.mp hfetch
      apply ih (distinct_included? hobject)

/-- Where each of some objects stands for a list of others, the first that has a name is
found either way. -/
theorem findSome?_filterMap_eq_flatMap {α : Type} {object? : α → Option Members}
    {objects : α → List Members} {name : String}
    (h : ∀ item, (object? item).bind (·.lookup name) = (objects item).findSome? (·.lookup name))
    (items : List α) :
  (items.filterMap object?).findSome? (·.lookup name)
    = (items.flatMap objects).findSome? (·.lookup name)
  := by
  induction items with
  | nil => rfl
  | cons item items ih =>
    rw [List.flatMap_cons, List.findSome?_append, ← h, ← ih]
    cases hobject : object? item with
    | none => rw [List.filterMap_cons_none hobject, Option.bind_none, Option.none_or]
    | some object =>
      rw [List.filterMap_cons_some hobject, List.findSome?_cons, Option.bind_some]
      cases object.lookup name with
      | none => rfl
      | some value => rfl

/-- A name is found in the first object in order that has one. -/
theorem lookup_resolve {name : String} (hname : name ≠ key) (h : members.Distinct)
    {remaining : Nat} (hlength : chain.length + remaining = depthLimit + 1) :
  (resolve env remaining base chain members).value.lookup name
    = (preorder env base chain members).findSome? (·.lookup name)
  := by
  induction remaining generalizing base chain members with
  | zero =>
    rw [preorder_of_deep (by omega), List.findSome?_singleton]
    cases hkey : members.lookup key with
    | none =>
      rw [resolve_of_none hkey]
      rfl
    | some value => rw [value_resolve_zero hkey, h.lookup_swapRemove, if_neg hname]
  | succ remaining ih =>
    cases hkey : members.lookup key with
    | none =>
      rw [resolve_of_none hkey, preorder_of_none hkey, List.findSome?_singleton]
      rfl
    | some value =>
      have hincluded : ∀ file,
          (fetch env (resolve env remaining) base chain file).value.bind (·.lookup name)
            = (match included? env base chain file with
              | none => []
              | some (path, members) => preorder env (path.parent?.getD base)
                  (chain ++ [env.files.canonical path]) members).findSome? (List.lookup name) := by
        intro file
        rw [value_fetch]
        cases hobject : included? env base chain file with
        | none => rfl
        | some object =>
          apply ih (distinct_included? hobject)
          rw [List.length_append, List.length_singleton]
          omega
      rw [value_resolve_succ hkey, Members.lookup_foldl_addMissing, h.lookup_swapRemove,
        if_neg hname, findSome?_filterMap_eq_flatMap hincluded,
        preorder_of_some hkey (by omega), List.findSome?_cons]
      cases members.lookup name with
      | none => rfl
      | some value => rfl

/-- The object that a file amounts to names its members differently and includes nothing
more.  Any other name has the value that the first object in order gives it, and is absent
if none does. -/
theorem resolveRoot_precedence (env : Environment) {path : Path} {members : Members}
    (hread : env.readDocument path = .ok (.object members)) :
  ∃ resolved : Members,
    (resolveRoot env path (.object members)).value = .object resolved
      ∧ resolved.Distinct
      ∧ resolved.lookup key = none
      ∧ ∀ name ≠ key, resolved.lookup name
        = (preorder env (path.parent?.getD ⟨"."⟩) [env.files.canonical path] members).findSome?
            (·.lookup name)
  := by
  have hdistinct := Environment.distinct_readDocument hread
  use (resolve env depthLimit (path.parent?.getD ⟨"."⟩) [env.files.canonical path] members).value
  use rfl, distinct_resolve hdistinct _, lookup_key_resolve hdistinct _
  intro name hname
  apply lookup_resolve hname hdistinct
  rw [List.length_singleton, Nat.add_comm]

/-- An object that includes two files. -/
def barsObject : Members :=
  [("include", .array [.string "a", .string "b"]), ("mode", .string "dock")]

/-- What the first file holds, which includes the second. -/
def firstObject : Members :=
  [("include", .string "b"), ("name", .string "first")]

/-- What the second file holds, which includes the root. -/
def secondObject : Members :=
  [("include", .string "bars"), ("mode", .string "hide"), ("name", .string "second")]

/-- A tree of the three files. -/
def sharing : Environment where
  files :=
    FileTree.fileSystem
      (.directory
        [("bars", .file (Document.object barsObject).compact.toUTF8),
         ("a", .file (Document.object firstObject).compact.toUTF8),
         ("b", .file (Document.object secondObject).compact.toUTF8)])
      []
  home := none
  configHome := none

/-- The root wins over what it includes, and the first file that it includes over the
second. -/
theorem resolveRoot_precedence_sharing :
  sharing.readDocument ⟨"/bars"⟩ = .ok (.object barsObject)
    ∧ ∃ resolved : Members,
      (resolveRoot sharing ⟨"/bars"⟩ (.object barsObject)).value = .object resolved
        ∧ resolved.lookup "include" = none
        ∧ resolved.lookup "mode" = some (.string "dock")
        ∧ resolved.lookup "name" = some (.string "first")
  := by
  have hbars : sharing.readDocument ⟨"/bars"⟩ = .ok (.object barsObject) :=
    Environment.readDocument_of_read (Document.object barsObject).compact rfl rfl
  have hfirst : sharing.readDocument ⟨"/a"⟩ = .ok (.object firstObject) :=
    Environment.readDocument_of_read (Document.object firstObject).compact rfl rfl
  have hincluded : included? sharing ⟨"/"⟩ [⟨"/bars"⟩] "a" = some (⟨"/a"⟩, firstObject) := by
    rw [included?, if_neg (by decide)]
    change (match sharing.readDocument ⟨"/a"⟩ with
      | .ok (.object members) => some (Path.mk "/a", members)
      | _ => none) = _
    rw [hfirst]
  obtain ⟨resolved, hvalue, -, hkey, hlookup⟩ := resolveRoot_precedence sharing hbars
  use hbars, resolved, hvalue, hkey
  constructor
  · rw [hlookup "mode" (by decide), preorder]
    rfl
  · rw [hlookup "name" (by decide)]
    change (preorder sharing ⟨"/"⟩ [⟨"/bars"⟩] barsObject).findSome? _ = _
    rw [preorder_of_some rfl (by decide)]
    change (barsObject :: List.flatMap _ ["a", "b"]).findSome? _ = _
    rw [List.flatMap_cons, hincluded]
    change (barsObject :: (preorder sharing ⟨"/"⟩ _ firstObject ++ _)).findSome? _ = _
    rw [preorder]
    rfl

end Include

end StatusBar
