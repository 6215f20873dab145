import ForeignBridge.Settings.Decode
import ForeignBridge.Settings.Registration

/-! # Reading the settings of registration

The table `registration` of a document; other tables are ignored. Each entry of `direct-calls` must have a name of its
own and a function path. -/

namespace ForeignBridge

namespace DirectCallSpec

/-- The fields of a direct call while they are decoded. -/
structure Draft where
  name : Option String
  function : Option String
  params : List TypeExpr
  returns : Option TypeExpr
  autoConvert : Bool

/-- Decodes an entry of a direct call. -/
def Draft.entry (d : Draft) (key : String) (v : Toml.Value) : Except SettingsError Draft :=
  match key with
  | "name" => (Settings.text v).map fun s => { d with name := some s }
  | "function" => (Settings.text v).map fun s => { d with function := some s }
  | "params" => (Settings.listOf Settings.typeExpr v).map fun ts => { d with params := ts }
  | "returns" => (Settings.typeExpr v).map fun t => { d with returns := some t }
  | "auto-convert" => (Settings.boolean v).map fun b => { d with autoConvert := b }
  | _ => .ok d

/-- Decodes a direct call, which must have a name and a function. -/
def decode : Settings.Decoder DirectCallSpec := fun v => do
  let d ← Settings.record ["name", "function", "params", "returns", "auto-convert"] Draft.entry
    ⟨none, none, [], none, true⟩ v
  match d.name, d.function with
  | some name, some function => .ok ⟨name, function, d.params, d.returns, d.autoConvert⟩
  | _, _ => Settings.unfit

/-- The first fault of a list of direct calls, of which those named in `seen` came before. -/
def fault? (seen : List String) : List DirectCallSpec → Option SettingsError
  | [] => none
  | spec :: rest =>
    if spec.name.isEmpty then some .namelessCall
    else if seen.contains spec.name then some (.duplicateCall spec.name)
    else if spec.function.isEmpty then some (.callWithoutFunction spec.name)
    else fault? (spec.name :: seen) rest

end DirectCallSpec

namespace RegistrationSettings

/-- Decodes an entry of the table `registration`. -/
def entry (settings : RegistrationSettings) (key : String) (v : Toml.Value) :
    Except SettingsError RegistrationSettings :=
  match key with
  | "disabled" => (Settings.listOf Settings.text v).map fun names => { settings with disabled := names }
  | "instances" => (Settings.listOf Settings.typeExpr v).map fun ts => { settings with instances := ts }
  | "direct-calls" => (Settings.listOf DirectCallSpec.decode v).map fun ds => { settings with directCalls := ds }
  | _ => .ok settings

/-- Decodes a table of the document. -/
def table (settings : RegistrationSettings) (key : String) (v : Toml.Value) :
    Except SettingsError RegistrationSettings :=
  match key with
  | "registration" => Settings.record ["disabled", "instances", "direct-calls"] entry settings v
  | _ => .ok settings

/-- Reads settings from a document and checks them. -/
def ofString (source : String) : Except SettingsError RegistrationSettings := do
  let settings ← Settings.document table default source
  match DirectCallSpec.fault? [] settings.directCalls with
  | some e => .error e
  | none => .ok settings

end RegistrationSettings

end ForeignBridge
