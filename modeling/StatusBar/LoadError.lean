import StatusBar.Document.Relaxed
import StatusBar.File.System
import StatusBar.Text.Quoted

/-!
# Errors of loading

What keeps a configuration from being loaded.  An error is told as a chain of texts, the
outermost first.
-/

namespace StatusBar

/-- What a message says about a text that is no document, outermost first. -/
def Relaxed.faultChain (fault : Fault) : List String :=
  ["Invalid JSON", fault.message]

/-- The words for a chain on one line. -/
def chainMessage (chain : List String) : String :=
  ": ".intercalate chain

/-- Why a configuration is not loaded. -/
inductive LoadError where
  | unreadable (path : Path) (cause : FileError)
  | malformed (path : Path) (fault : Fault)
  | noneFound (directories : List Path)
  deriving DecidableEq, Repr

namespace LoadError

/-- The texts for an error, outermost first. -/
def chain : LoadError → List String
  | unreadable path cause => ["Failed to read config file " ++ path.text, cause.message]
  | malformed path fault =>
    ("Failed to parse config file " ++ path.text) :: Relaxed.faultChain fault
  | noneFound directories =>
    ["No config file found in " ++ Text.Quoted.encodeList (directories.map (·.text))]

/-- The words for an error on one line. -/
def message (error : LoadError) : String :=
  chainMessage error.chain

end LoadError

end StatusBar
