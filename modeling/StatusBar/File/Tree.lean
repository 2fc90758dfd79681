import StatusBar.File.System

/-!
# File trees

A finite tree of files and directories is a file system: a path is followed piece by
piece, from the root or from the working directory.  Every piece but the last has to lead
to a directory, and so does an empty piece, as after a trailing separator.  A name has a
greatest length, and so has a path that is read.
-/

namespace StatusBar

/-- A file, or a directory with its entries by name. -/
inductive FileTree where
  | file (content : ByteArray)
  | directory (entries : List (String × FileTree))
  deriving Inhabited

namespace FileTree

/-- What lies at the end of a list of names. -/
def at? : FileTree → (names : List String) → Option FileTree
  | tree, [] => some tree
  | .file _, _ :: _ => none
  | .directory entries, name :: names =>
    match entries.lookup name with
    | none => none
    | some tree => tree.at? names

/-- Whether a list of names leads to a directory. -/
def isDirectoryAt (tree : FileTree) (names : List String) : Bool :=
  match tree.at? names with
  | some (.directory _) => true
  | _ => false

/-- The most bytes that a name can have. -/
def maxNameBytes : Nat := 255

/-- The most bytes that a path can have to be read. -/
def maxPathBytes : Nat := 4095

/-- Follow pieces of a path from the directory with the given names.  Gives the names of
the place where they lead. -/
def follow (tree : FileTree) : (names : List String) → (pieces : List String) →
    Except FileError (List String)
  | names, [] => .ok names
  | names, piece :: pieces =>
    if !tree.isDirectoryAt names then
      .error .notDirectory
    else if piece = "" ∨ piece = "." then
      follow tree names pieces
    else if piece = ".." then
      follow tree names.dropLast pieces
    else if maxNameBytes < piece.utf8ByteSize then
      .error .nameTooLong
    else if (tree.at? (names ++ [piece])).isSome then
      follow tree (names ++ [piece]) pieces
    else
      .error .notFound

/-- The names of the place that a path leads to. -/
def locate (tree : FileTree) (workingDirectory : List String) (path : Path) :
    Except FileError (List String) :=
  let pieces := (Text.pieces Path.isSeparator path.text.toList).map String.ofList
  if path.text = "" then
    .error .notFound
  else if path.isAbsolute then
    tree.follow [] pieces
  else
    tree.follow workingDirectory pieces

/-- The absolute path of a list of names. -/
def pathOf (names : List String) : Path :=
  ⟨"/" ++ "/".intercalate names⟩

/-- Read the file that a path leads to. -/
def read (tree : FileTree) (workingDirectory : List String) (path : Path) :
    Except FileError ByteArray :=
  if path.hasNul then
    .error .nulInName
  else if maxPathBytes < path.text.utf8ByteSize then
    .error .nameTooLong
  else do
    let names ← tree.locate workingDirectory path
    match tree.at? names with
    | some (.file content) => return content
    | some (.directory _) => throw .isDirectory
    | none => throw .notFound

/-- The absolute path of the place that a path leads to, whatever the path's length. -/
def canonical? (tree : FileTree) (workingDirectory : List String) (path : Path) : Option Path :=
  if path.hasNul then
    none
  else
    (tree.locate workingDirectory path).toOption.map pathOf

/-- A tree as a file system. -/
def fileSystem (tree : FileTree) (workingDirectory : List String) : FileSystem where
  read := tree.read workingDirectory
  isFile := fun path => (tree.read workingDirectory path).toBool
  canonical? := tree.canonical? workingDirectory

mutual

/-- Put a content at the end of a list of names, with the directories on the way.  None
stands for a directory without entries of its own. -/
def put (content : Option ByteArray) : (names : List String) → FileTree → FileTree
  | [], tree =>
    match content with
    | some bytes => .file bytes
    | none => tree
  | name :: names, .directory entries => .directory (putEntry content name names entries)
  | name :: names, .file _ => .directory (putEntry content name names [])
termination_by names _ => (names.length, 0)

/-- Put a content below the entry of that name. -/
def putEntry (content : Option ByteArray) (name : String) (names : List String) :
    List (String × FileTree) → List (String × FileTree)
  | [] => [(name, put content names (.directory []))]
  | (key, tree) :: rest =>
    if key = name then
      (key, put content names tree) :: rest
    else
      (key, tree) :: putEntry content name names rest
termination_by entries => (names.length, entries.length + 1)

end

/-- The tree of files given by their names from the root. -/
def ofList (files : List (List String × Option ByteArray)) : FileTree :=
  files.foldl (fun tree file => put file.2 file.1 tree) (.directory [])

end FileTree

end StatusBar
