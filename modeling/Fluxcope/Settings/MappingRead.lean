import Fluxcope.Control.Error
import Fluxcope.Library.Machine
import Fluxcope.Settings.AppSettings
/-!
# Reading the mapping settings

A read may be narrowed to one preset and to one table.  What is copied is charged
to the response budget before the copy is made.
-/

namespace Fluxcope.Settings

open Fluxcope.Library Fluxcope.Control

structure MappingReadScope where
  preset : Option Text := none
  table : Option ProxyRuleTable := none
  deriving DecidableEq, Repr

/-- The JSON details of the two errors of a read. -/
inductive MappingReadErrorDetails
  | preset (name : Text)
  | maxProjectionBytes (bytes : Nat)
  deriving DecidableEq, Repr

structure MappingReadError where
  code : ControlErrorCode
  message : String
  retryable : Bool
  details : MappingReadErrorDetails
  deriving DecidableEq, Repr

/-- The sizes in memory of the records of a view. -/
structure ViewSizes where
  settings : Nat
  preset : Nat
  rule : Nat

def presetNotFound (name : Text) : MappingReadError :=
  { code := .invalidArgument
    message := "mapping preset was not found"
    retryable := false
    details := .preset name }

variable (sizes : ViewSizes)

/-- A scope names a preset as the settings spell it. -/
def MappingReadScope.selects (scope : MappingReadScope) (preset : ProxyPresetSettings) : Bool :=
  match scope.preset with
  | none => true
  | some name => preset.name = name

/-- The presets a read copies, each with its index. -/
def MappingReadScope.selected (scope : MappingReadScope) (proxy : ProxySettings) :
    List (ProxyPresetSettings × Nat) :=
  proxy.presets.zipIdx.filter fun (preset, _) => scope.selects preset

namespace MappingSettingsView

end MappingSettingsView

/-! ## What a view holds -/

section Views

variable {sizes : ViewSizes} {α β : Type}

end Views

end Fluxcope.Settings
