import StatusBar.Proofs.Include.Failing

/-!
# Loading without entries

A configuration file is loaded just if it is read, whatever becomes of the files that it
includes.  `Loaded.ofFileWithout` loads it while some entries are absent, at their places in
the file: without one that fails, only its warning is lost.
-/

namespace StatusBar

open Include (Fails Processed)

namespace Include

/-- The root of a file with its includes put in, in each item of an array on its own. -/
def resolveFile (env : Environment) (path : Path) (root : Document) : Logged Notice Document :=
  match root with
  | .array items => Document.array <$> Logged.each (resolveRoot env path) items
  | root => resolveRoot env path root

/-- The root of a configuration, or one of its items, with its includes put in but for absent
entries. -/
def resolveRootWithout (env : Environment) (absent : List Nat → Bool) (path : Path)
    (doc : Document) : Logged Notice Document :=
  match doc with
  | .object members =>
    Document.object <$>
      resolveWithout env depthLimit absent (path.parent?.getD ⟨"."⟩) [env.files.canonical path]
        members
  | doc => pure doc

/-- The root of a file with its includes put in but for absent entries. -/
def resolveFileWithout (env : Environment) (absent : List Nat → Bool) (path : Path)
    (root : Document) : Logged Notice Document :=
  match root with
  | .array items =>
    Document.array <$> Logged.each
      (fun item => resolveRootWithout env (fun place => absent (item.2 :: place)) path item.1)
      items.zipIdx
  | root => resolveRootWithout env absent path root

/-- The entries that are processed for the root of a file.  In an array, a place starts with
the index of the item. -/
inductive ProcessedIn (env : Environment) (path : Path) :
    (root : Document) → (place : List Nat) → (base : Path) → (chain : List Path) →
    (name : String) → Prop where
  | object {members : Members} {place : List Nat} {base : Path} {chain : List Path}
    {name : String}
    (h : Processed env depthLimit (path.parent?.getD ⟨"."⟩) [env.files.canonical path] members
      place base chain name) :
    ProcessedIn env path (.object members) place base chain name
  | item {earlier later : List Document} {members : Members} {place : List Nat} {base : Path}
    {chain : List Path} {name : String}
    (h : Processed env depthLimit (path.parent?.getD ⟨"."⟩) [env.files.canonical path] members
      place base chain name) :
    ProcessedIn env path (.array (earlier ++ .object members :: later)) (earlier.length :: place)
      base chain name

variable {env : Environment} {path base : Path} {root : Document} {members : Members}
  {place : List Nat} {chain : List Path} {name : String} {warning : Warning}

theorem resolveRootWithout_nothing (env : Environment) (path : Path) (doc : Document) :
  resolveRootWithout env (fun _ => false) path doc = resolveRoot env path doc
  := by
  cases doc with
  | object members => rw [resolveRootWithout, resolveWithout_nothing, resolveRoot]
  | _ => rfl

theorem resolveFileWithout_nothing (env : Environment) (path : Path) (root : Document) :
  resolveFileWithout env (fun _ => false) path root = resolveFile env path root
  := by
  cases root with
  | array items =>
    rw [resolveFileWithout, resolveFile]
    congr 1
    apply Logged.each_zipIdx
    intro item _
    apply resolveRootWithout_nothing
  | object members => exact resolveRootWithout_nothing env path (.object members)
  | _ => rfl

theorem loses_resolveRootWithout
    (h : Processed env depthLimit (path.parent?.getD ⟨"."⟩) [env.files.canonical path] members
      place base chain name)
    (hfails : Fails env base chain name warning) :
  Logged.Loses (.warning warning) (resolveRoot env path (.object members))
    (resolveRootWithout env (· == place) path (.object members))
  := (loses_resolveWithout h hfails).map Document.object

theorem loses_resolveFileWithout (h : ProcessedIn env path root place base chain name)
    (hfails : Fails env base chain name warning) :
  Logged.Loses (.warning warning) (resolveFile env path root)
    (resolveFileWithout env (· == place) path root)
  := by
  cases h with
  | object h => exact loses_resolveRootWithout h hfails
  | item h =>
    apply Logged.Loses.map
    apply Logged.Loses.each
    · simpa [List.cons_beq_cons] using loses_resolveRootWithout h hfails
    · -- No place in another item is the absent one.
      intro other index hindex
      have hindex := beq_eq_false_iff_ne.mpr hindex
      simp [List.cons_beq_cons, hindex, resolveRootWithout_nothing]

end Include

namespace Loaded

/-- The bars of a root whose includes are put in. -/
def ofRoot (path : Path) (root : Document) : Logged Notice Loaded := do
  let documents ← (barDocuments root).mapLog Notice.warning
  let bars ← (Logged.each Config.load documents).mapLog Notice.warning
  return ⟨path, bars⟩

theorem ofDocument_eq (env : Environment) (path : Path) (root : Document) :
  ofDocument env path root = Include.resolveFile env path root >>= ofRoot path
  := by
  cases root <;> rfl

/-- The bars of a configuration file in which some entries are absent. -/
def ofDocumentWithout (env : Environment) (absent : List Nat → Bool) (path : Path)
    (root : Document) : Logged Notice Loaded :=
  Include.resolveFileWithout env absent path root >>= ofRoot path

/-- Load a configuration file in which some entries are absent. -/
def ofFileWithout (env : Environment) (absent : List Nat → Bool) (path : Path) :
    Logged Notice (Except LoadError Loaded) := do
  Logged.note (.loading path)
  match env.readDocument path with
  | .error error => return .error error
  | .ok root => Except.ok <$> ofDocumentWithout env absent path root

variable {env : Environment} {path base : Path} {root : Document} {place : List Nat}
  {chain : List Path} {name : String} {warning : Warning}

/-- Nothing is absent from the file itself. -/
theorem ofFileWithout_nothing (env : Environment) (path : Path) :
  ofFileWithout env (fun _ => false) path = ofFile env path
  := by
  have hdocument : ofDocumentWithout env (fun _ => false) path = ofDocument env path := by
    funext root
    rw [ofDocumentWithout, Include.resolveFileWithout_nothing, ofDocument_eq]
  cases hread : env.readDocument path with
  | error error => rw [ofFileWithout, ofFile, hread]
  | ok root => rw [ofFileWithout, ofFile, hread, hdocument]

/-- A file that cannot be read is not loaded. -/
theorem value_ofFile_of_error {error : LoadError} (h : env.readDocument path = .error error) :
  (ofFile env path).value = .error error
  := by
  rw [ofFile, h, Logged.value_bind, Logged.value_pure]

/-- A file that is read is loaded. -/
theorem value_ofFile_of_ok (h : env.readDocument path = .ok root) :
  (ofFile env path).value = .ok (ofDocument env path root).value
  := by
  rw [ofFile, h, Logged.value_bind, Logged.value_map]

theorem value_ofFile_eq_error_iff {error : LoadError} :
  (ofFile env path).value = .error error ↔ env.readDocument path = .error error
  := by
  cases hread : env.readDocument path with
  | error cause => rw [value_ofFile_of_error hread]; simp
  | ok root => rw [value_ofFile_of_ok hread]; simp

theorem exists_value_ofFile_eq_ok_iff :
  (∃ loaded, (ofFile env path).value = .ok loaded) ↔ ∃ root, env.readDocument path = .ok root
  := by
  cases hread : env.readDocument path with
  | error error => simp [value_ofFile_of_error hread]
  | ok root => simp [value_ofFile_of_ok hread]

theorem loses_ofFileWithout (hread : env.readDocument path = .ok root)
    (h : Include.ProcessedIn env path root place base chain name)
    (hfails : Fails env base chain name warning) :
  Logged.Loses (.warning warning) (ofFile env path) (ofFileWithout env (· == place) path)
  := by
  rw [ofFile, ofFileWithout, hread]
  apply Logged.Loses.after
  apply Logged.Loses.map
  rw [ofDocument_eq]
  apply (Include.loses_resolveFileWithout h hfails).bind

end Loaded

end StatusBar
