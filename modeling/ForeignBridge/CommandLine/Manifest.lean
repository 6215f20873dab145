import ForeignBridge.Settings.Bridge
import ForeignBridge.Settings.RegistrationReader

/-! # Manifests

A manifest is a document with the settings of the bridge and of registration. It is looked for in the working directory
and above; what was found there is handed to the commands. -/

namespace ForeignBridge.CommandLine

/-- The name of the manifest file. -/
def manifestName : String := "braid.toml"

/-- What was found on the way up from the working directory. -/
inductive ManifestFile where
  | missing
  /-- A file that cannot be read. -/
  | unreadable (path : String) (reason : String)
  /-- A file with its directory and text. -/
  | found (directory : String) (path : String) (source : String)
deriving DecidableEq, Repr

/-- The settings of a manifest. -/
structure Manifest where
  bridge : BridgeSettings
  registration : RegistrationSettings
deriving DecidableEq, Repr

namespace Manifest

/-- The settings without a manifest. -/
def default : Manifest := ⟨.default, .default⟩

/-- The name of the foreign library for display. -/
def libraryName (m : Manifest) : String := m.bridge.name.getD "(unnamed)"

/-- Reads the settings of a document. The error says which part was read. -/
def ofString (source : String) : Except String Manifest :=
  match BridgeSettings.ofString source with
  | .error e => .error ("reading [bridge] and [conversions]: " ++ e.message)
  | .ok bridge =>
    match RegistrationSettings.ofString source with
    | .error e => .error ("reading [registration]: " ++ e.message)
    | .ok registration => .ok ⟨bridge, registration⟩

/-- The settings of a manifest file with its directory, if there is one. -/
def ofFile : ManifestFile → Except String (Option (Manifest × String))
  | .missing => .ok none
  | .unreadable path reason => .error s!"reading {path}: {reason}"
  | .found directory path source =>
    match ofString source with
    | .ok m => .ok (some (m, directory))
    | .error e => .error s!"parsing {path}: {e}"

end Manifest

end ForeignBridge.CommandLine
