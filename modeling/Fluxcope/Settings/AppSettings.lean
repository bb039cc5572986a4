import Fluxcope.Library.Text
/-!
# The settings of the application

The proxy section holds presets of mapping rules.  The two tables of a preset have the same shape, and so
have their rules; `source` and `target` are the fields `from` and `to`.
-/

namespace Fluxcope.Settings

open Fluxcope.Library

structure ProxyMapRule where
  source : Text := []
  target : Text := []
  enable : Bool := true
  deriving DecidableEq, Repr

abbrev ProxyMapRemoteRule := ProxyMapRule

abbrev ProxyMapLocalRule := ProxyMapRule

structure ProxyMapSettings where
  enable : Bool := true
  rules : List ProxyMapRule := []
  deriving DecidableEq, Repr

structure ProxyPresetSettings where
  name : Text := []
  mapRemote : ProxyMapSettings := {}
  mapLocal : ProxyMapSettings := {}
  deriving DecidableEq, Repr

structure ProxySettings where
  enable : Bool := true
  activePreset : Option Text := none
  presets : List ProxyPresetSettings := []
  deriving DecidableEq, Repr

/-- The trimmed name of the active preset; empty without one. -/
def ProxySettings.activeName (proxy : ProxySettings) : Text :=
  Text.trim (proxy.activePreset.getD [])

inductive MappingTable
  | mapRemote
  | mapLocal
  deriving DecidableEq, Repr

abbrev ProxyRuleTable := MappingTable

inductive MappingField
  | source
  | target
  deriving DecidableEq, Repr

def ProxyPresetSettings.table (preset : ProxyPresetSettings) : MappingTable → ProxyMapSettings
  | .mapRemote => preset.mapRemote
  | .mapLocal => preset.mapLocal

/-!
## All sections
-/

structure ServerSettings where
  port : Nat := 8989
  deriving DecidableEq, Repr

structure McpSettings where
  enable : Bool := false
  deriving DecidableEq, Repr

structure CertificateSettings where
  storeDir : Text := "~/.fluxcope/certificate/".toList
  pemFilename : Text := "fluxcope-ca.pem".toList
  deriving DecidableEq, Repr

structure RecordingPrefilterPatternSettings where
  pattern : Text := []
  enable : Bool := true
  deriving DecidableEq, Repr

structure RecordingPrefilterSettings where
  enable : Bool := true
  includeUrlPatterns : List RecordingPrefilterPatternSettings := []
  deriving DecidableEq, Repr

structure RecordingSettings where
  startRecordOnLaunch : Bool := true
  prefilter : RecordingPrefilterSettings := {}
  deriving DecidableEq, Repr

structure RequestListSettings where
  autoExpand : Bool := false
  deriving DecidableEq, Repr

structure UiSettings where
  requestList : RequestListSettings := {}
  deriving DecidableEq, Repr

structure AppSettings where
  server : ServerSettings := {}
  mcp : McpSettings := {}
  certificate : CertificateSettings := {}
  recording : RecordingSettings := {}
  ui : UiSettings := {}
  proxy : Option ProxySettings := none
  deriving DecidableEq, Repr

end Fluxcope.Settings
