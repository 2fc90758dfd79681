import StatusBar.File.System

/-!
# Snapshots

What was found out about some paths, as a file system that knows no others.
-/

namespace StatusBar

/-- What was found out about a path. -/
structure Snapshot.Entry where
  path : Path
  content : Except FileError ByteArray
  isFile : Bool
  canonical? : Option Path

/-- What was found out about some paths. -/
abbrev Snapshot := List Snapshot.Entry

namespace Snapshot

/-- What was found out about a path. -/
def entry? (snapshot : Snapshot) (path : Path) : Option Entry :=
  snapshot.find? fun entry => entry.path = path

/-- A snapshot as a file system.  Nothing is found at the paths it does not know. -/
def fileSystem (snapshot : Snapshot) : FileSystem where
  read := fun path =>
    match snapshot.entry? path with
    | some entry => entry.content
    | none => .error .notFound
  isFile := fun path => (snapshot.entry? path).any Entry.isFile
  canonical? := fun path => (snapshot.entry? path).bind Entry.canonical?

end Snapshot

end StatusBar
