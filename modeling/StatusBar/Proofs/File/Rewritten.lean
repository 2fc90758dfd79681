import Mathlib.Data.List.TakeWhile
import Mathlib.Tactic.Use
import StatusBar.File.Tree

/-!
# Trees with rewritten files

Two trees that are the same but for what their files hold.  Every path leads to the same
place in both, so that reading it either fails in the same way or gives the two contents of
one file.
-/

namespace StatusBar

/-- What has no parent is made of pieces that lead nowhere. -/
theorem Path.isIdle_of_parent?_eq_none {path : Path} (h : path.parent? = none) :
  ∀ piece ∈ Text.pieces isSeparator path.text.toList, isIdle piece
  := by
  rw [parent?] at h
  split at h
  case h_2 => cases h
  case h_1 hbody =>
    have hidle : ∀ piece ∈ bodyPieces path.text.toList, isIdle piece := by
      intro piece hpiece
      rw [trimEnd, List.reverse_eq_nil_iff] at hbody
      exact List.dropWhile_eq_nil_iff.mp hbody piece (List.mem_reverse.mpr hpiece)
    -- With the lead, the pieces of the body are all pieces but an empty one in front.
    rw [bodyPieces] at hidle
    rw [lead.eq_def] at h hidle
    split at hidle
    case h_1 rest hrest =>
      rw [hrest] at hidle ⊢
      rw [Text.pieces, if_pos (by decide)]
      exact List.forall_mem_cons.mpr ⟨by decide, hidle⟩
    case h_2 htext =>
      rw [htext] at h
      cases h
    case h_3 htext =>
      rw [htext] at h
      cases h
    case h_4 => exact hidle

namespace FileTree

variable {tree tree' : FileTree} {workingDirectory : List String} {path : Path}

/-- What is read is a file that the path leads to. -/
theorem exists_file_of_read {bytes : ByteArray}
    (h : tree.read workingDirectory path = .ok bytes) :
  ∃ names, tree.locate workingDirectory path = .ok names ∧ tree.at? names = some (.file bytes)
  := by
  rw [read] at h
  split at h
  case isTrue => cases h
  case isFalse =>
    split at h
    case isTrue => cases h
    case isFalse =>
      cases hlocate : tree.locate workingDirectory path with
      | error error =>
        rw [hlocate] at h
        cases h
      | ok names =>
        rw [hlocate] at h
        simp only [bind, Except.bind] at h
        use names, rfl
        split at h
        case h_1 hfile =>
          cases h
          exact hfile
        case h_2 => cases h
        case h_3 => cases h

/-- Pieces that lead nowhere stay in a directory. -/
theorem isDirectoryAt_of_follow_idle {names names' : List String}
    {pieces : List (List Char)} (hidle : ∀ piece ∈ pieces, Path.isIdle piece)
    (hpieces : pieces ≠ []) (h : tree.follow names (pieces.map String.ofList) = .ok names') :
  tree.isDirectoryAt names'
  := by
  induction pieces with
  | nil => exact absurd rfl hpieces
  | cons piece pieces ih =>
    obtain ⟨hpiece, hidle⟩ := List.forall_mem_cons.mp hidle
    rw [List.map_cons, follow] at h
    split at h
    case isTrue => cases h
    case isFalse hdirectory =>
      have hstays : String.ofList piece = "" ∨ String.ofList piece = "." := by
        rw [Path.isIdle, Bool.or_eq_true] at hpiece
        obtain hempty | hdot := hpiece
        · rw [of_decide_eq_true hempty]
          exact .inl rfl
        · rw [of_decide_eq_true hdot]
          exact .inr rfl
      rw [if_pos hstays] at h
      by_cases hlast : pieces = []
      · rw [hlast] at h
        cases h
        simpa using hdirectory
      · exact ih hidle hlast h

/-- What is read has a parent. -/
theorem exists_parent?_of_read {bytes : ByteArray}
    (h : tree.read workingDirectory path = .ok bytes) :
  ∃ base, path.parent? = some base
  := by
  apply Option.ne_none_iff_exists'.mp
  intro hparent
  have hidle := Path.isIdle_of_parent?_eq_none hparent
  obtain ⟨names, hlocate, hfile⟩ := exists_file_of_read h
  have hdirectory : tree.isDirectoryAt names := by
    rw [locate] at hlocate
    split at hlocate
    case isTrue => cases hlocate
    case isFalse =>
      split at hlocate
      · exact isDirectoryAt_of_follow_idle hidle (Text.pieces_ne_nil _ _) hlocate
      · exact isDirectoryAt_of_follow_idle hidle (Text.pieces_ne_nil _ _) hlocate
  rw [isDirectoryAt, hfile] at hdirectory
  cases hdirectory

/-- Both are files, whose contents are so related, or both are directories. -/
inductive Alike (content : ByteArray → ByteArray → Prop) : FileTree → FileTree → Prop where
  | file {bytes bytes' : ByteArray} (h : content bytes bytes') :
    Alike content (.file bytes) (.file bytes')
  | directory (entries entries' : List (String × FileTree)) :
    Alike content (.directory entries) (.directory entries')

/-- The same tree but for what its files hold: at every place the contents are related. -/
def Rewritten (content : List String → ByteArray → ByteArray → Prop)
    (tree tree' : FileTree) : Prop :=
  ∀ names, Option.Rel (Alike (content names)) (tree.at? names) (tree'.at? names)

namespace Rewritten

variable {content : List String → ByteArray → ByteArray → Prop} {tree tree' : FileTree}
  (h : Rewritten content tree tree')

include h

theorem isDirectoryAt_eq (names : List String) :
  tree'.isDirectoryAt names = tree.isDirectoryAt names
  := by
  have hplace := h names
  rw [isDirectoryAt, isDirectoryAt]
  generalize tree.at? names = place? at hplace ⊢
  generalize tree'.at? names = place'? at hplace ⊢
  cases hplace with
  | none => rfl
  | some hplace => cases hplace <;> rfl

theorem isSome_at?_eq (names : List String) :
  (tree'.at? names).isSome = (tree.at? names).isSome
  := by
  have hplace := h names
  generalize tree.at? names = place? at hplace ⊢
  generalize tree'.at? names = place'? at hplace ⊢
  cases hplace <;> rfl

theorem follow_eq (names pieces : List String) :
  tree'.follow names pieces = tree.follow names pieces
  := by
  induction pieces generalizing names with
  | nil => rfl
  | cons piece pieces ih =>
    rw [follow, follow, h.isDirectoryAt_eq, h.isSome_at?_eq, ih, ih, ih]

theorem locate_eq (workingDirectory : List String) (path : Path) :
  tree'.locate workingDirectory path = tree.locate workingDirectory path
  := by
  rw [locate, locate, h.follow_eq, h.follow_eq]

theorem canonical?_eq (workingDirectory : List String) (path : Path) :
  tree'.canonical? workingDirectory path = tree.canonical? workingDirectory path
  := by
  rw [canonical?, canonical?, h.locate_eq]

/-- A path is read from both trees or from none, and in both from the same place. -/
theorem read_rel (workingDirectory : List String) (path : Path) :
  (∃ error, tree.read workingDirectory path = .error error
      ∧ tree'.read workingDirectory path = .error error)
    ∨ ∃ names bytes bytes', tree.locate workingDirectory path = .ok names
      ∧ content names bytes bytes'
      ∧ tree.read workingDirectory path = .ok bytes
      ∧ tree'.read workingDirectory path = .ok bytes'
  := by
  rw [read, read, h.locate_eq]
  split
  case isTrue => exact .inl ⟨_, rfl, rfl⟩
  case isFalse =>
    split
    case isTrue => exact .inl ⟨_, rfl, rfl⟩
    case isFalse =>
      cases tree.locate workingDirectory path with
      | error error => exact .inl ⟨error, rfl, rfl⟩
      | ok names =>
        have hplace := h names
        simp only [bind, Except.bind]
        generalize tree.at? names = place? at hplace ⊢
        generalize tree'.at? names = place'? at hplace ⊢
        cases hplace with
        | none => exact .inl ⟨_, rfl, rfl⟩
        | some hplace =>
          cases hplace with
          | file hcontent => exact .inr ⟨names, _, _, rfl, hcontent, rfl, rfl⟩
          | directory => exact .inl ⟨_, rfl, rfl⟩

end Rewritten

end FileTree

end StatusBar
