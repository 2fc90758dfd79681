import StatusBar.Proofs.File.Rewritten

/-!
# Trees with one file replaced

To put a content where a file lies replaces what the file holds, and nothing else: the tree is
the same but for that.
-/

namespace StatusBar.FileTree

/-- What a content is once another one is put at some place. -/
def Replaces (place : List String) (content : ByteArray) (names : List String)
    (bytes bytes' : ByteArray) : Prop :=
  bytes' = if names = place then content else bytes

/-- What lies below a directory is what lies below its entry of that name. -/
theorem at?_directory_cons (entries : List (String × FileTree)) (name : String)
    (names : List String) :
  (directory entries).at? (name :: names)
    = (entries.lookup name).bind fun tree => tree.at? names
  := by
  rw [at?]
  cases entries.lookup name with
  | none => rfl
  | some tree => rfl

/-- The entry of that name is the one that the content is put below, and the other entries
stay. -/
theorem lookup_putEntry {entries : List (String × FileTree)} {name : String} {tree : FileTree}
    (h : entries.lookup name = some tree) (content : Option ByteArray) (names : List String)
    (name' : String) :
  (putEntry content name names entries).lookup name'
    = if name' = name then some (put content names tree) else entries.lookup name'
  := by
  induction entries with
  | nil => cases h
  | cons entry entries ih =>
    obtain ⟨key, old⟩ := entry
    rw [putEntry]
    by_cases hkey : key = name
    · have hold : old = tree := by simpa [List.lookup_cons, hkey] using h
      rw [if_pos hkey, hkey, hold, List.lookup_cons, List.lookup_cons]
      by_cases hname : name' = name
      · simp [hname]
      · simp [hname, beq_eq_false_iff_ne.mpr hname]
    · have hrest : entries.lookup name = some tree := by
        simpa [List.lookup_cons, beq_eq_false_iff_ne.mpr (Ne.symm hkey)] using h
      rw [if_neg hkey, List.lookup_cons, List.lookup_cons, ih hrest]
      by_cases hname : name' = key
      · simp [hname, hkey]
      · simp [beq_eq_false_iff_ne.mpr hname]

theorem Rewritten.of_forall_eq {content : List String → ByteArray → ByteArray → Prop}
    (h : ∀ names bytes, content names bytes bytes) (tree : FileTree) :
  Rewritten content tree tree
  := by
  intro names
  cases tree.at? names with
  | none => exact .none
  | some place =>
    cases place with
    | file bytes => exact .some (.file (h names bytes))
    | directory entries => exact .some (.directory entries entries)

/-- Only the file at that place is rewritten. -/
theorem rewritten_put {tree : FileTree} {place : List String} {old : ByteArray}
    (h : tree.at? place = some (.file old)) (content : ByteArray) :
  tree.Rewritten (Replaces place content) (put (some content) place tree)
  := by
  induction place generalizing tree with
  | nil =>
    cases h
    rw [put]
    rintro (_ | ⟨name, names⟩)
    · exact .some (.file rfl)
    · exact .none
  | cons name place ih =>
    cases tree with
    | file => cases h
    | directory entries =>
      rw [at?_directory_cons] at h
      obtain ⟨below, hbelow, hfile⟩ := Option.bind_eq_some_iff.mp h
      rw [put]
      rintro (_ | ⟨name', names⟩)
      · exact .some (.directory _ _)
      · rw [at?_directory_cons, at?_directory_cons, lookup_putEntry hbelow]
        by_cases hname : name' = name
        · subst hname
          rw [if_pos rfl, hbelow, Option.bind_some, Option.bind_some]
          have hinside : Replaces (name' :: place) content (name' :: names)
              = Replaces place content names := by
            funext bytes bytes'
            simp [Replaces]
          rw [hinside]
          exact ih hfile names
        · rw [if_neg hname]
          have hother : ∀ names bytes,
              Replaces (name :: place) content (name' :: names) bytes bytes := by
            intro names bytes
            simp [Replaces, hname]
          cases hlookup : entries.lookup name' with
          | none => exact .none
          | some other => exact Rewritten.of_forall_eq hother other names

/-- A path that led to the file now leads to its new content. -/
theorem read_put {tree : FileTree} {workingDirectory place : List String} {path : Path}
    {old : ByteArray} (hread : tree.read workingDirectory path = .ok old)
    (hlocate : tree.locate workingDirectory path = .ok place)
    (hfile : tree.at? place = some (.file old)) (content : ByteArray) :
  (tree.put (some content) place).read workingDirectory path = .ok content
  := by
  obtain ⟨error, herror, -⟩ | ⟨names, bytes, bytes', hnames, hreplaced, -, hafter⟩
    := (rewritten_put hfile content).read_rel workingDirectory path
  · rw [hread] at herror
    cases herror
  · rw [hlocate] at hnames
    cases hnames
    rw [Replaces, if_pos rfl] at hreplaced
    rw [hafter, hreplaced]

end StatusBar.FileTree
