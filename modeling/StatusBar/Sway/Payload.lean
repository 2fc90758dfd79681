import StatusBar.LoadError
import StatusBar.Sway.Message
import StatusBar.Sway.Record

/-!
# Payloads

The texts that the compositor's messages come as.
-/

namespace StatusBar.Sway

/-- Bar configurations as records. -/
def BarConfig.schema : Schema BarConfig where
  title := "SwaybarConfig"
  fields :=
    [.ofRead "id" readText fun id config => { config with id },
     .ofRead "mode" readText fun mode config => { config with mode },
     .ofRead "hidden_state" readText fun hiddenState config => { config with hiddenState },
     .ofRead "position" readText fun position config => { config with position },
     .ofRead "outputs" readTexts fun outputs config => { config with outputs }]
  initial := {}

/-- Bar state updates as records. -/
def BarStateUpdate.schema : Schema BarStateUpdate where
  title := "BarStateUpdate"
  fields :=
    [.ofRead "id" readText fun id update => { update with id },
     .ofRead "visible_by_modifier" readBool fun visibleByModifier update =>
       { update with visibleByModifier }]
  initial := {}

/-- Mode changes as records. -/
def ModeChange.schema : Schema ModeChange where
  title := "ModeEvent"
  fields := [.ofRead "change" readText fun change event => { event with change }]
  initial := {}

/-- A payload that is not understood. -/
structure PayloadError where
  /-- What messages call the record. -/
  title : String
  fault : Fault
  deriving DecidableEq, Repr

namespace PayloadError

/-- The texts for an error, outermost first. -/
def chain (error : PayloadError) : List String :=
  ["Failed to parse wlbar::ipc::messages::" ++ error.title, error.fault.message]

/-- The words for an error on one line. -/
def message (error : PayloadError) : String :=
  chainMessage error.chain

end PayloadError

/-- Read a payload. -/
def Schema.readPayload {α : Type} (schema : Schema α) (payload : String) :
    Except PayloadError α :=
  (schema.read payload).mapError fun fault => ⟨schema.title, fault⟩

end StatusBar.Sway
