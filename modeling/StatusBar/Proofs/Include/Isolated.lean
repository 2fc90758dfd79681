import StatusBar.Proofs.File.Rewritten
import StatusBar.Proofs.Include.Trimmed

/-!
# Failures are isolated

What becomes of included files never keeps a configuration from being loaded, and an entry
that fails is as good as absent.  So a tree whose files are rid of such entries gives the
same bars.
-/

namespace StatusBar

open Include (Fails ProcessedIn Trimmed Unusable)

/-- The document that the content of a file writes. -/
def document? (content : ByteArray) : Option Document :=
  (String.fromUTF8? content).bind fun text => (Relaxed.read text).toOption

theorem document?_eq_some_iff {content : ByteArray} {doc : Document} :
  document? content = some doc
    ↔ ∃ text, String.fromUTF8? content = some text ∧ Relaxed.read text = .ok doc
  := by
  rw [document?, Option.bind_eq_some_iff]
  apply exists_congr
  intro text
  cases Relaxed.read text with
  | error fault => simp [Except.toOption]
  | ok doc' => simp [Except.toOption]

theorem document?_toUTF8 {text : String} {doc : Document} (h : Relaxed.read text = .ok doc) :
  document? text.toUTF8 = some doc
  := by
  rw [document?, fromUTF8?_toUTF8, Option.bind_some, h]
  rfl

namespace Environment

variable {env : Environment} {path : Path}

/-- A document is read where a file has a content that writes it. -/
theorem readDocument_eq_ok_iff_document? {doc : Document} :
  env.readDocument path = .ok doc
    ↔ ∃ content, env.files.read path = .ok content ∧ document? content = some doc
  := by
  rw [readDocument_eq_ok_iff, FileSystem.readText]
  cases env.files.read path with
  | error error => simp [bind, Except.bind]
  | ok content =>
    simp only [bind, Except.bind, Except.ok.injEq, exists_eq_left']
    rw [document?]
    cases String.fromUTF8? content with
    | none => simp [throw, throwThe, MonadExceptOf.throw]
    | some text =>
      simp only [Option.bind_some]
      change (∃ text', Except.ok text = .ok text' ∧ _) ↔ _
      cases hdoc : Relaxed.read text with
      | error fault => simp [Except.toOption, hdoc]
      | ok doc' => simp [Except.toOption, hdoc]

/-- What is read of a path depends on its content only. -/
theorem readDocument_congr {env' : Environment}
    (h : env'.files.read path = env.files.read path) :
  env'.readDocument path = env.readDocument path
  := by
  rw [readDocument, readDocument, FileSystem.readText, FileSystem.readText, h]

/-- A tree of files in which configurations are looked for. -/
def ofTree (tree : FileTree) (workingDirectory : List String) (home configHome : Option Path) :
    Environment where
  files := tree.fileSystem workingDirectory
  home := home
  configHome := configHome

end Environment

theorem Environment.readDocument_ofTree_eq_ok_iff {tree : FileTree}
    {workingDirectory : List String} {home configHome : Option Path} {path : Path}
    {doc : Document} :
  (ofTree tree workingDirectory home configHome).readDocument path = .ok doc
    ↔ ∃ content, tree.read workingDirectory path = .ok content ∧ document? content = some doc
  := readDocument_eq_ok_iff_document?

/-- The content of a file at some paths, once some of the entries are deleted under which
nothing can be included.  A content that writes no document stays. -/
def TrimmedContent (env : Environment) (leads : Path → Prop) (content content' : ByteArray) :
    Prop :=
  content' = content
    ∨ ∃ doc doc', document? content = some doc ∧ document? content' = some doc'
      ∧ ∀ path base, leads path → path.parent? = some base → Trimmed (Unusable env base) doc doc'

namespace TrimmedContent

variable {env : Environment} {leads : Path → Prop} {content content' : ByteArray}
  (h : TrimmedContent env leads content content')

include h

theorem eq_of_none (hnone : document? content = none) :
  content' = content
  := by
  obtain heq | ⟨doc, doc', hdoc, -⟩ := h
  · exact heq
  · rw [hnone] at hdoc
    cases hdoc

theorem exists_trimmed {doc : Document} (hdoc : document? content = some doc) :
  ∃ doc', document? content' = some doc'
    ∧ ∀ path base, leads path → path.parent? = some base → Trimmed (Unusable env base) doc doc'
  := by
  obtain heq | ⟨old, doc', hold, hdoc', htrimmed⟩ := h
  · rw [heq]
    use doc, hdoc
    intro path base _ _
    exact .item (.same doc)
  · rw [hdoc] at hold
    cases hold
    use doc', hdoc'

end TrimmedContent

/-- The same tree, once some of the entries are deleted under which nothing can be included.
What an entry names depends on the paths that lead to its file. -/
def TrimmedTree (workingDirectory : List String) (home configHome : Option Path)
    (tree tree' : FileTree) : Prop :=
  tree.Rewritten
    (fun names =>
      TrimmedContent (.ofTree tree workingDirectory home configHome)
        fun path => tree.locate workingDirectory path = .ok names)
    tree'

/-- Trimmed trees are file systems whose files are trimmed. -/
theorem TrimmedTree.trimmedFiles {tree tree' : FileTree} {workingDirectory : List String}
    {home configHome : Option Path} (h : TrimmedTree workingDirectory home configHome tree tree') :
  Include.TrimmedFiles (.ofTree tree workingDirectory home configHome)
    (.ofTree tree' workingDirectory home configHome)
  := by
  constructor
  case home => rfl
  case canonical =>
    intro path
    change (tree'.canonical? workingDirectory path).getD path
      = (tree.canonical? workingDirectory path).getD path
    rw [FileTree.Rewritten.canonical?_eq h]
  case unread =>
    intro path error herror
    rw [← herror]
    apply Environment.readDocument_congr
    obtain ⟨cause, hread, hread'⟩ | ⟨names, content, content', -, hcontent, hread, hread'⟩
      := FileTree.Rewritten.read_rel h workingDirectory path
    · exact hread'.trans hread.symm
    · have hnone : document? content = none := by
        apply Option.eq_none_iff_forall_not_mem.mpr
        intro doc hdoc
        rw [Environment.readDocument_ofTree_eq_ok_iff.mpr ⟨content, hread, hdoc⟩] at herror
        cases herror
      rw [hcontent.eq_of_none hnone] at hread'
      exact hread'.trans hread.symm
  case read =>
    intro path doc hdoc
    obtain ⟨content, hread, hcontent⟩ := Environment.readDocument_ofTree_eq_ok_iff.mp hdoc
    obtain ⟨base, hbase⟩ := FileTree.exists_parent?_of_read hread
    obtain ⟨cause, herror, -⟩ | ⟨names, old, new, hlocate, htrimmed, hold, hnew⟩
      := FileTree.Rewritten.read_rel h workingDirectory path
    · rw [herror] at hread
      cases hread
    · rw [hold] at hread
      cases hread
      obtain ⟨doc', hdoc', hsteps⟩ := htrimmed.exists_trimmed hcontent
      use base, doc', hbase
      use Environment.readDocument_ofTree_eq_ok_iff.mpr ⟨new, hnew, hdoc'⟩
      apply hsteps path base hlocate hbase

namespace Loaded

/-- Whether a file is loaded depends on what is in it alone: it is not if it cannot be read
as a text that writes a document, and then the error says why.

An entry that is processed and fails yields one warning and no object, whatever is included
otherwise; so the file is loaded with the same bars if the entry is absent, and with the same
notices but for that warning.

And if files are rid of entries under which nothing can be included, the bars are the
same. -/
theorem failures_isolated :
  (∀ (env : Environment) (path : Path),
      (∀ error, (ofFile env path).value = .error error
        ↔ (∃ cause, env.files.readText path = .error cause ∧ error = .unreadable path cause)
          ∨ ∃ text fault, env.files.readText path = .ok text ∧ Relaxed.read text = .error fault
            ∧ error = .malformed path fault)
      ∧ ((∃ loaded, (ofFile env path).value = .ok loaded)
        ↔ ∃ text root, env.files.readText path = .ok text ∧ Relaxed.read text = .ok root))
    ∧ (∀ (env : Environment) (path : Path) (root : Document) (place : List Nat) (base : Path)
        (chain : List Path) (name : String) (warning : Warning),
      env.readDocument path = .ok root → ProcessedIn env path root place base chain name →
        Fails env base chain name warning →
          (∀ resolve, Include.fetch env resolve base chain name
              = .withNotes [.warning warning] none)
          ∧ ∃ before after, (ofFile env path).log = before ++ .warning warning :: after
            ∧ ofFileWithout env (· == place) path = ⟨(ofFile env path).value, before ++ after⟩)
    ∧ ∀ (workingDirectory : List String) (home configHome : Option Path) (tree tree' : FileTree),
      TrimmedTree workingDirectory home configHome tree tree' →
      ∀ path, (ofFile (.ofTree tree' workingDirectory home configHome) path).value
        = (ofFile (.ofTree tree workingDirectory home configHome) path).value
  := by
  constructor
  · intro env path
    constructor
    · intro error
      rw [← Environment.readDocument_eq_error_iff]
      apply value_ofFile_eq_error_iff
    · rw [exists_value_ofFile_eq_ok_iff]
      simp only [Environment.readDocument_eq_ok_iff]
      exact exists_comm
  · constructor
    · intro env path root place base chain name warning hread hprocessed hfails
      use hfails.fetch_eq
      apply loses_ofFileWithout hread hprocessed hfails
    · intro workingDirectory home configHome tree tree' h path
      apply value_ofFile_trimmed h.trimmedFiles

/-- An object that includes a file that is missing, and another one. -/
def lossyObject : Members :=
  [("include", .array [.string "/lost", .string "b"]), ("name", .string "bars")]

/-- The object without the missing file. -/
def mendedObject : Members :=
  [("include", .array [.string "b"]), ("name", .string "bars")]

/-- A tree of two files, whose first one holds the given object. -/
def treeOf (object : Members) : FileTree :=
  .directory
    [("bars", .file (Document.object object).compact.toUTF8),
     ("b", .file (Document.object [("mode", .string "hide")]).compact.toUTF8)]

/-- The files of that tree. -/
def filesOf (object : Members) : Environment :=
  .ofTree (treeOf object) [] none none

/-- The missing file is nowhere to be found. -/
theorem unusable_lost (base : Path) :
  Unusable (filesOf lossyObject) base "/lost"
  := by
  have hexpand : (filesOf lossyObject).expand base "/lost" = ⟨"/lost"⟩ := rfl
  have hlost : (filesOf lossyObject).files.readText ⟨"/lost"⟩ = .error .notFound := rfl
  intro members h
  rw [hexpand, Environment.readDocument_of_unreadable hlost] at h
  cases h

theorem trimmedTree_mendedObject :
  TrimmedTree [] none none (treeOf lossyObject) (treeOf mendedObject)
  := by
  have htrimmed : ∀ base, Trimmed (Unusable (filesOf lossyObject) base) (.object lossyObject)
      (.object mendedObject) := by
    intro base
    apply Trimmed.item
    apply @Include.TrimmedItem.object _ lossyObject _ (.array [.string "b"]) rfl
    exact .drop (unusable_lost base) (.keep "b" .nil)
  rintro (_ | ⟨name, names⟩)
  · exact .some (.directory _ _)
  · by_cases hbars : name = "bars"
    · subst hbars
      cases names with
      | nil =>
        apply Option.Rel.some
        apply FileTree.Alike.file
        right
        use .object lossyObject, .object mendedObject, document?_toUTF8 rfl, document?_toUTF8 rfl
        intro path base _ _
        apply htrimmed
      | cons => exact .none
    · have hother : (treeOf mendedObject).at? (name :: names)
          = (treeOf lossyObject).at? (name :: names) := by
        have hname : (name == "bars") = false := beq_eq_false_iff_ne.mpr hbars
        simp only [treeOf, FileTree.at?, List.lookup_cons, hname]
      rw [hother]
      cases (treeOf lossyObject).at? (name :: names) with
      | none => exact .none
      | some tree =>
        cases tree with
        | file => exact .some (.file (.inl rfl))
        | directory => exact .some (.directory _ _)

/-- The missing file is left out with a warning, and might as well not be named. -/
theorem failures_isolated_lossyObject :
  (ofFile (filesOf lossyObject) ⟨"/lost"⟩).value = .error (.unreadable ⟨"/lost"⟩ .notFound)
    ∧ (∃ before after, (ofFile (filesOf lossyObject) ⟨"/bars"⟩).log
          = before
            ++ .warning (.includeFailed ⟨"/lost"⟩ (.unreadable ⟨"/lost"⟩ .notFound)) :: after
        ∧ ofFileWithout (filesOf lossyObject) (· == [0]) ⟨"/bars"⟩
          = ⟨(ofFile (filesOf lossyObject) ⟨"/bars"⟩).value, before ++ after⟩)
    ∧ (ofFile (filesOf mendedObject) ⟨"/bars"⟩).value
      = (ofFile (filesOf lossyObject) ⟨"/bars"⟩).value
  := by
  have hlost : (filesOf lossyObject).files.readText ⟨"/lost"⟩ = .error .notFound := rfl
  have hbars : (filesOf lossyObject).readDocument ⟨"/bars"⟩ = .ok (.object lossyObject) :=
    Environment.readDocument_of_read (Document.object lossyObject).compact rfl rfl
  have hprocessed : ProcessedIn (filesOf lossyObject) ⟨"/bars"⟩ (.object lossyObject) [0] ⟨"/"⟩
      [⟨"/bars"⟩] "/lost" :=
    .object (@Include.Processed.here _ _ _ _ _ _ [] ["b"] "/lost" rfl rfl)
  have hfails : Fails (filesOf lossyObject) ⟨"/"⟩ [⟨"/bars"⟩] "/lost"
      (.includeFailed ⟨"/lost"⟩ (.unreadable ⟨"/lost"⟩ .notFound)) :=
    .unreadable (by decide) hlost
  obtain ⟨hload, habsent, htrimmed⟩ := failures_isolated
  constructor
  · exact ((hload _ _).1 _).mpr (.inl ⟨.notFound, hlost, rfl⟩)
  · constructor
    · exact (habsent _ _ _ _ _ _ _ _ hbars hprocessed hfails).2
    · exact htrimmed [] none none _ _ trimmedTree_mendedObject ⟨"/bars"⟩

end Loaded

end StatusBar
