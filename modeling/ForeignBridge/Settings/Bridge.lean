import ForeignBridge.Conversion
import ForeignBridge.Settings.Decode

/-! # Settings of the bridge

The table `bridge` names the foreign library and the versions of it that will do. The table `conversions` lists the kinds
of values that are converted and limits how deep they nest. Other tables are ignored. -/

namespace ForeignBridge

/-- What the bridge is asked to do. -/
structure BridgeSettings where
  /-- The name of the foreign library, for display. -/
  name : Option String
  /-- A requirement on the version of the foreign library. -/
  library : Option String
  /-- The converted kinds as they are listed. -/
  enabled : List NativeKind
  maxDepth : Nat
deriving DecidableEq, Repr

namespace BridgeSettings

/-- No requirements, and everything is converted. -/
def default : BridgeSettings := ⟨none, none, NativeKind.all, ConversionPolicy.defaultMaxDepth⟩

/-- The policy of conversion. -/
def policy (settings : BridgeSettings) : ConversionPolicy := .ofEnabled settings.enabled settings.maxDepth

/-- The requirement on the foreign library, if there is one. -/
def requirement (settings : BridgeSettings) : Except SettingsError (Option Version.Requirement) :=
  match settings.library with
  | none => .ok none
  | some text =>
    match Version.Requirement.ofString? text with
    | some required => .ok (some required)
    | none => .error (.malformedRequirement text)

/-- Decodes an entry of the table `bridge`. -/
def bridgeEntry (settings : BridgeSettings) (key : String) (v : Toml.Value) : Except SettingsError BridgeSettings :=
  match key with
  | "name" => (Settings.text v).map fun s => { settings with name := some s }
  | "library" => (Settings.text v).map fun s => { settings with library := some s }
  | _ => .ok settings

/-- Decodes an entry of the table `conversions`. -/
def conversionsEntry (settings : BridgeSettings) (key : String) (v : Toml.Value) :
    Except SettingsError BridgeSettings :=
  match key with
  | "enabled" =>
    (Settings.listOf (Settings.choice NativeKind.ofName?) v).map fun kinds => { settings with enabled := kinds }
  | "max-depth" => (Settings.natural v).map fun n => { settings with maxDepth := n }
  | _ => .ok settings

/-- Decodes a table of the document. -/
def table (settings : BridgeSettings) (key : String) (v : Toml.Value) : Except SettingsError BridgeSettings :=
  match key with
  | "bridge" => Settings.record ["name", "library"] bridgeEntry settings v
  | "conversions" => Settings.record ["enabled", "max-depth"] conversionsEntry settings v
  | _ => .ok settings

/-- Reads settings from a document and checks them. -/
def ofString (source : String) : Except SettingsError BridgeSettings := do
  let settings ← Settings.document table default source
  if settings.maxDepth = 0 then .error .zeroDepth
  else
    let _ ← settings.requirement
    .ok settings

/-- The version of the foreign library, if it satisfies the requirement. -/
def checkLibrary (required : Option Version.Requirement) (found : Version) : Except IncompatibleLibrary Version :=
  match required with
  | none => .ok found
  | some required => if required.accepts found then .ok found else .error ⟨required, found⟩

end BridgeSettings

end ForeignBridge
