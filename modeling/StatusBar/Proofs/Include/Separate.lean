import StatusBar.Proofs.File.Replaced
import StatusBar.Proofs.Include.Isolated
import StatusBar.Proofs.Relaxed.Parts

/-!
# Bars of one file

The file that bars are loaded from is never read again for what they include, by whatever
path, since it is the first of the files that are being included.  So each bar of an array is
what it would be if the file held nothing else.
-/

namespace StatusBar

/-- The spelling of a path is one of its spellings. -/
theorem Path.same_self (path : Path) :
  path.same path
  := beq_self_eq_true path.components

namespace Include

/-- The same files but for the one that a path leads to. -/
structure SameElsewhere (root : Path) (env env' : Environment) : Prop where
  home : env'.home = env.home
  canonical : ∀ path, env'.files.canonical path = env.files.canonical path
  read : ∀ path, env.files.canonical path ≠ env.files.canonical root →
    env'.readDocument path = env.readDocument path

namespace SameElsewhere

variable {root : Path} {env env' : Environment} (h : SameElsewhere root env env')

include h

theorem fetch_eq {resolve resolve' : Path → List Path → Members → Logged Notice Members}
    {base : Path} {chain : List Path} (hchain : env.files.canonical root ∈ chain)
    (hresolve : ∀ base' path members, resolve' base' (chain ++ [path]) members
      = resolve base' (chain ++ [path]) members)
    (name : String) :
  fetch env' resolve' base chain name = fetch env resolve base chain name
  := by
  rw [fetch, fetch, Environment.expand_congr h.home, h.canonical]
  split
  case isTrue => rfl
  case isFalse hany =>
    have hother : env.files.canonical (env.expand base name) ≠ env.files.canonical root := by
      intro heq
      apply hany
      rw [heq]
      exact List.any_eq_true.mpr ⟨_, hchain, Path.same_self _⟩
    rw [h.read _ hother]
    cases env.readDocument (env.expand base name) with
    | error error => rfl
    | ok doc =>
      cases doc with
      | object members => simp only [hresolve]
      | _ => rfl

/-- While the file is being included, what it holds does not matter. -/
theorem resolve_eq (remaining : Nat) {base : Path} {chain : List Path}
    (hchain : env.files.canonical root ∈ chain) (members : Members) :
  resolve env' remaining base chain members = resolve env remaining base chain members
  := by
  induction remaining generalizing base chain members with
  | zero => rw [resolve, resolve]
  | succ remaining ih =>
    have hfetch : fetch env' (resolve env' remaining) base chain
        = fetch env (resolve env remaining) base chain := by
      funext name
      apply h.fetch_eq hchain
      intro base' path members
      apply ih (List.mem_append_left _ hchain)
    rw [resolve, resolve]
    cases members.lookup key with
    | none => rfl
    | some value => simp only [hfetch]

theorem resolveRoot_eq (doc : Document) :
  resolveRoot env' root doc = resolveRoot env root doc
  := by
  cases doc with
  | object members =>
    rw [resolveRoot, resolveRoot, h.canonical,
      h.resolve_eq depthLimit (List.mem_singleton.mpr rfl)]
  | _ => rfl

end SameElsewhere

theorem isObject_resolveRoot (env : Environment) (path : Path) (doc : Document) :
  (resolveRoot env path doc).value.isObject = doc.isObject
  := by
  cases doc <;> rfl

end Include

/-- The canonical path of what is read is that of the place where it lies. -/
theorem FileTree.canonical_of_read {tree : FileTree} {workingDirectory names : List String}
    {path : Path} {bytes : ByteArray} (hread : tree.read workingDirectory path = .ok bytes)
    (hlocate : tree.locate workingDirectory path = .ok names) :
  (tree.fileSystem workingDirectory).canonical path = pathOf names
  := by
  have hnul : ¬ path.hasNul := by
    intro hnul
    rw [read, if_pos hnul] at hread
    cases hread
  change (tree.canonical? workingDirectory path).getD path = pathOf names
  rw [canonical?, if_neg hnul, hlocate]
  rfl

/-- An item of an array that a content writes is what some content writes. -/
theorem exists_content_of_mem {content : ByteArray} {items : List Document}
    (h : document? content = some (.array items)) {item : Document} (hitem : item ∈ items) :
  ∃ content', document? content' = some item
  := by
  obtain ⟨text, -, hread⟩ := document?_eq_some_iff.mp h
  obtain ⟨text', hread'⟩ := Document.exists_readChars_of_mem (Relaxed.read_eq_ok.mp hread) hitem
  use (String.ofList text').toUTF8
  apply document?_toUTF8
  apply Relaxed.read_of_read
  rw [Document.read, Reading.mapError_eq_ok, String.toList_ofList, hread']

/-- To replace the content of the file that a path leads to changes nothing elsewhere. -/
theorem Include.sameElsewhere_put {tree : FileTree} {workingDirectory place : List String}
    {home configHome : Option Path} {root : Path} {old : ByteArray}
    (hread : tree.read workingDirectory root = .ok old)
    (hlocate : tree.locate workingDirectory root = .ok place)
    (hfile : tree.at? place = some (.file old)) (content : ByteArray) :
  SameElsewhere root (.ofTree tree workingDirectory home configHome)
    (.ofTree (tree.put (some content) place) workingDirectory home configHome)
  := by
  have hrewritten := FileTree.rewritten_put hfile content
  constructor
  case home => rfl
  case canonical =>
    intro path
    change ((tree.put (some content) place).canonical? workingDirectory path).getD path
      = (tree.canonical? workingDirectory path).getD path
    rw [hrewritten.canonical?_eq]
  case read =>
    intro path hpath
    apply Environment.readDocument_congr
    obtain ⟨cause, hbefore, hafter⟩ | ⟨names, bytes, bytes', hnames, hreplaced, hbefore, hafter⟩
      := hrewritten.read_rel workingDirectory path
    · exact hafter.trans hbefore.symm
    · have hplace : names ≠ place := by
        rintro rfl
        apply hpath
        change (tree.fileSystem workingDirectory).canonical path
          = (tree.fileSystem workingDirectory).canonical root
        rw [FileTree.canonical_of_read hbefore hnames, FileTree.canonical_of_read hread hlocate]
      rw [FileTree.Replaces, if_neg hplace] at hreplaced
      rw [hreplaced] at hafter
      exact hafter.trans hbefore.symm

namespace Loaded

theorem value_ofRoot_array (path : Path) (items : List Document) :
  (ofRoot path (.array items)).value
    = ⟨path, (items.filter Document.isObject).map Config.ofDocument⟩
  := by
  simp only [ofRoot, Logged.value_bind, Logged.value_pure, Logged.mapLog, Logged.value_each]
  rfl

/-- The bars of an array are those of its objects. -/
theorem value_ofDocument_array (env : Environment) (path : Path) (items : List Document) :
  (ofDocument env path (.array items)).value
    = ⟨path, (items.filter Document.isObject).map fun item =>
        Config.ofDocument (Include.resolveRoot env path item).value⟩
  := by
  rw [ofDocument_eq, Logged.value_bind, Include.resolveFile, Logged.value_map, Logged.value_each,
    value_ofRoot_array, List.filter_map, List.map_map]
  congr 2
  apply List.filter_congr
  intro item _
  apply Include.isObject_resolveRoot

theorem value_ofDocument_object (env : Environment) (path : Path) (members : Members) :
  (ofDocument env path (.object members)).value
    = ⟨path, [Config.ofDocument (Include.resolveRoot env path (.object members)).value]⟩
  := rfl

/-- Each bar of an array is what the file would be loaded as if it held only the object that
the bar is of, in whatever text.  What is no object counts for nothing. -/
theorem bars_on_their_own (tree : FileTree) (workingDirectory : List String)
    (home configHome : Option Path) {path : Path} {items : List Document}
    (hread : (Environment.ofTree tree workingDirectory home configHome).readDocument path
      = .ok (.array items)) :
  ∃ place bars, tree.locate workingDirectory path = .ok place
    ∧ (ofFile (.ofTree tree workingDirectory home configHome) path).value = .ok ⟨path, bars⟩
    ∧ List.Forall₂
      (fun item bar => (∃ content, document? content = some item)
        ∧ ∀ content, document? content = some item →
          (ofFile (.ofTree (tree.put (some content) place) workingDirectory home configHome)
            path).value = .ok ⟨path, [bar]⟩)
      (items.filter Document.isObject) bars
  := by
  obtain ⟨old, hold, hroot⟩ := Environment.readDocument_ofTree_eq_ok_iff.mp hread
  obtain ⟨place, hlocate, hfile⟩ := FileTree.exists_file_of_read hold
  use place, (items.filter Document.isObject).map fun item => Config.ofDocument
    (Include.resolveRoot (.ofTree tree workingDirectory home configHome) path item).value
  use hlocate
  constructor
  · rw [value_ofFile_of_ok hread, value_ofDocument_array]
  · apply List.forall₂_map_right_iff.mpr
    apply List.forall₂_same.mpr
    intro item hitem
    obtain ⟨hmem, hobject⟩ := List.mem_filter.mp hitem
    use exists_content_of_mem hroot hmem
    intro content hcontent
    have halone : (Environment.ofTree (tree.put (some content) place) workingDirectory home
        configHome).readDocument path = .ok item :=
      Environment.readDocument_ofTree_eq_ok_iff.mpr
        ⟨content, FileTree.read_put hold hlocate hfile content, hcontent⟩
    have hsame : Include.SameElsewhere path (.ofTree tree workingDirectory home configHome)
        (.ofTree (tree.put (some content) place) workingDirectory home configHome) :=
      Include.sameElsewhere_put hold hlocate hfile content
    cases item with
    | object members =>
      rw [value_ofFile_of_ok halone, value_ofDocument_object, hsame.resolveRoot_eq]
    | _ => cases hobject

/-- An object that includes another file and the root. -/
def upperObject : Members :=
  [("include", .array [.string "shared", .string "./bars"]), ("name", .string "upper")]

/-- An object that includes the other file as well. -/
def lowerObject : Members :=
  [("include", .string "shared"), ("name", .string "lower")]

/-- A tree of a root and the other file, which includes the root in turn. -/
def sharedTree (root : Document) : FileTree :=
  .directory
    [("bars", .file root.compact.toUTF8),
     ("shared", .file
      (Document.object [("include", .string "bars"), ("mode", .string "hide")]).compact.toUTF8)]

/-- Both bars are the same as without the other, and null is no bar. -/
theorem bars_on_their_own_shared :
  (Environment.ofTree (sharedTree (.array [.object upperObject, .null, .object lowerObject])) []
      none none).readDocument ⟨"/bars"⟩
    = .ok (.array [.object upperObject, .null, .object lowerObject])
    ∧ ∃ upper lower,
      (ofFile (.ofTree (sharedTree (.array [.object upperObject, .null, .object lowerObject])) []
          none none) ⟨"/bars"⟩).value = .ok ⟨⟨"/bars"⟩, [upper, lower]⟩
        ∧ (ofFile (.ofTree (sharedTree (.object upperObject)) [] none none) ⟨"/bars"⟩).value
          = .ok ⟨⟨"/bars"⟩, [upper]⟩
        ∧ (ofFile (.ofTree (sharedTree (.object lowerObject)) [] none none) ⟨"/bars"⟩).value
          = .ok ⟨⟨"/bars"⟩, [lower]⟩
  := by
  have hread : (Environment.ofTree
      (sharedTree (.array [.object upperObject, .null, .object lowerObject])) [] none
      none).readDocument ⟨"/bars"⟩
      = .ok (.array [.object upperObject, .null, .object lowerObject]) :=
    Environment.readDocument_of_read (Document.compact _) rfl rfl
  have hput : ∀ root root' : Document,
      (sharedTree root).put (some root'.compact.toUTF8) ["bars"] = sharedTree root' := by
    intro root root'
    simp [sharedTree, FileTree.put, FileTree.putEntry]
  have hplace : (sharedTree (.array [.object upperObject, .null, .object lowerObject])).locate []
      ⟨"/bars"⟩ = .ok ["bars"] := rfl
  obtain ⟨place, bars, hlocate, hbars, halone⟩ := bars_on_their_own _ [] none none hread
  obtain rfl := Except.ok.inj (hlocate.symm.trans hplace)
  obtain ⟨upper, bars, ⟨-, hupper⟩, hothers, rfl⟩ := List.forall₂_cons_left_iff.mp halone
  obtain ⟨lower, bars, ⟨-, hlower⟩, hnone, rfl⟩ := List.forall₂_cons_left_iff.mp hothers
  cases hnone
  have hupper := hupper (Document.object upperObject).compact.toUTF8 (document?_toUTF8 rfl)
  have hlower := hlower (Document.object lowerObject).compact.toUTF8 (document?_toUTF8 rfl)
  rw [hput] at hupper hlower
  exact ⟨hread, _, _, hbars, hupper, hlower⟩

end Loaded

end StatusBar
