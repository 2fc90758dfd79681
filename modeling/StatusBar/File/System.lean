import StatusBar.File.Path

/-!
# File systems

All that loading a configuration asks of the files around it.
-/

namespace StatusBar

/-- Why a file cannot be read as a text. -/
inductive FileError where
  | notFound
  | notDirectory
  | isDirectory
  /-- The path, or a name in it, is longer than any can be. -/
  | nameTooLong
  /-- The path holds the character that no name can hold. -/
  | nulInName
  | notText
  /-- Any other reason, in the system's words. -/
  | other (message : String)
  deriving DecidableEq, Repr

/-- The words for it. -/
def FileError.message : FileError → String
  | notFound => "No such file or directory (os error 2)"
  | notDirectory => "Not a directory (os error 20)"
  | isDirectory => "Is a directory (os error 21)"
  | nameTooLong => "File name too long (os error 36)"
  | nulInName => "file name contained an unexpected NUL byte"
  | notText => "stream did not contain valid UTF-8"
  | other message => message

/-- The questions that can be asked about files. -/
structure FileSystem where
  /-- The content of a file. -/
  read : Path → Except FileError ByteArray
  /-- Whether a path leads to a file. -/
  isFile : Path → Bool
  /-- The one absolute path of an existing file or directory. -/
  canonical? : Path → Option Path

namespace FileSystem

/-- The content of a file as a text. -/
def readText (files : FileSystem) (path : Path) : Except FileError String := do
  let bytes ← files.read path
  match String.fromUTF8? bytes with
  | some text => return text
  | none => throw .notText

/-- The canonical path of what exists; any other path stays as it is. -/
def canonical (files : FileSystem) (path : Path) : Path :=
  (files.canonical? path).getD path

end FileSystem

end StatusBar
