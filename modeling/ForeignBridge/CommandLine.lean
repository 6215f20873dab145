import ForeignBridge.CommandLine.Arguments
import ForeignBridge.CommandLine.Json
import ForeignBridge.CommandLine.Manifest
import ForeignBridge.Registration
import ForeignBridge.Registration.DirectCall
import ForeignBridge.Spellings

/-! # Commands

The commands work on a runtime that provides the families of the catalog. `types` registers them and lists the outcome,
`translate` translates type expressions, and `doctor` goes through settings, library version and registration.

A command writes its output line by line; when it fails, what it has written stays and the error follows. -/

namespace ForeignBridge.CommandLine

/-- What a command has written, and the error that ended it, if any. -/
structure Written where
  lines : List String
  error : Option String
deriving DecidableEq, Repr

/-- How a command line ends. -/
structure ExitState where
  code : Nat
  output : String
  errors : String
deriving DecidableEq, Repr

/-- The version of this program. -/
def programVersion : String := "0.1.0"

/-- The version that the runtime reports unless another is asked for. -/
def defaultLibraryVersion : Version := Version.ofNumbers 4 11 0

/-! ### The runtime -/

/-- The version of a runtime by its options. -/
def runtimeVersion (options : RuntimeOptions) : Except String Version :=
  match options.libraryVersion with
  | none => .ok defaultLibraryVersion
  | some text =>
    match Version.ofString? text with
    | some v => .ok v
    | none => .error s!"parsing --library-version '{text}'"

/-- A runtime that provides the families of the catalog, except those left out. -/
def runtime (options : RuntimeOptions) : Except String Store := do
  let version ← runtimeVersion options
  match options.without.find? fun name => (Catalog.find? name).isNone with
  | some name => .error s!"unknown type family '{name}'"
  | none => .ok (Store.providing version (Catalog.foreignNames options.without))

/-! ### The list of types -/

/-- Blanks after a text up to a width. -/
def padded (width : Nat) (text : String) : String :=
  text ++ String.ofList (List.replicate (width - text.length) ' ')

/-- The outcome of registration as it is listed. -/
structure Listing where
  fingerprint : String
  families : List String
  skipped : List String
  /-- Each type with its foreign spelling. -/
  types : List (String × Option String)
  failures : List Failure

/-- Lists the registered types, or those of one family. -/
def Listing.of (done : Registered) (family : Option String) : Listing :=
  let types := done.registry.order.filter fun t => family.all (t.name == ·)
  { fingerprint := done.report.fingerprint
    families := done.report.registered
    skipped := done.report.skipped
    types := types.map fun t => (t.render, (Spellings.standard.toForeign t).toOption)
    failures := done.report.failures }

/-- The listing for readers. -/
def Listing.lines (l : Listing) : List String :=
  [s!"Registered {l.types.length} types in {l.families.length} families (fingerprint {Outcome.short l.fingerprint})"]
    ++ l.types.map (fun (host, foreign) => "  " ++ padded 40 host ++ " " ++ foreign.getD "-")
    ++ (if l.skipped.isEmpty then [] else ["", "Skipped: " ++ ", ".intercalate l.skipped])
    ++ (if l.failures.isEmpty then []
        else ["", "Failures:"] ++ l.failures.map fun f => s!"  [{f.level.name}] {f.message}")

/-- The listing for other programs. -/
def Listing.json (l : Listing) : Json :=
  .object [
    ("fingerprint", .text l.fingerprint),
    ("families", .array (l.families.map .text)),
    ("skipped", .array (l.skipped.map .text)),
    ("types", .array (l.types.map fun (host, foreign) =>
      .object [("host", .text host), ("foreign", (foreign.map Json.text).getD .null)])),
    ("failures", .array (l.failures.map fun f =>
      .object [("level", .text f.level.name), ("subject", .text f.subject), ("error", .text f.error.message)]))]

/-- Registers the catalog and lists the types. -/
def listTypes (file : ManifestFile) (options : RuntimeOptions) (family format : Option String) :
    Except String (List String) := do
  let manifest := ((← Manifest.ofFile file).map Prod.fst).getD .default
  let store ← runtime options
  match (Bridge.ofPolicy manifest.bridge.policy).register manifest.registration store with
  | (.error e, _) => .error e.message
  | (.ok done, _) =>
    let listing := Listing.of done family
    match format.getD "text" with
    | "text" => .ok listing.lines
    | "json" => .ok [listing.json.render]
    | other => .error s!"unknown format '{other}' (expected text or json)"

/-! ### Spelling -/

/-- Translates a type expression, or lists every spelling. -/
def translate (expr : Option String) (reverse : Bool) : Except String (List String) :=
  match expr with
  | none => .ok (Spellings.standard.pairs.map fun (foreign, host) => "  " ++ padded 45 foreign ++ " " ++ host)
  | some text =>
    if reverse then
      match TypeExpr.ofString text with
      | .error e => .error s!"parsing host type '{text}': {e.message}"
      | .ok t =>
        match Spellings.standard.toForeign t with
        | .ok spelling => .ok [spelling]
        | .error e => .error e.message
    else
      match Spellings.standard.toHost text with
      | .ok t => .ok [t.render]
      | .error e => .error e.message

/-! ### Diagnosis -/

/-- The lines about the manifest, and the settings to go on with. -/
def diagnoseManifest (file : ManifestFile) : List String × Manifest :=
  match Manifest.ofFile file with
  | .ok (some (m, directory)) =>
    ([s!"  {manifestName}: found at {directory}", s!"  Library:    {m.libraryName}"], m)
  | .ok none => ([s!"  {manifestName}: not found, using defaults"], .default)
  | .error e => ([s!"  {manifestName}: error: {e}", "  (continuing with defaults)"], .default)

/-- The line about the required library version. -/
def diagnoseRequirement (settings : BridgeSettings) (found : Version) : String :=
  match settings.requirement with
  | .error e => s!"  Requirement: error: {e.message}"
  | .ok none => "  Requirement: none"
  | .ok (some required) =>
    match BridgeSettings.checkLibrary (some required) found with
    | .ok _ => s!"  Requirement: {required.render} (satisfied)"
    | .error e => s!"  Requirement: {required.render} (NOT satisfied: {e.message})"

/-- The lines about conversion. -/
def diagnoseConversions (policy : ConversionPolicy) : List String :=
  let enabled := policy.enabled.map NativeKind.name
  let shown := if enabled.isEmpty then "none (all values pass through opaquely)" else ", ".intercalate enabled
  ["  Enabled:   " ++ shown, s!"  Max depth: {policy.maxDepth}"]

/-- The lines about registration and direct calls. -/
def diagnoseRegistration (m : Manifest) (store : Store) : Except String (List String) :=
  match (Bridge.ofPolicy m.bridge.policy).register m.registration store with
  | (.error e, _) => .error e.message
  | (.ok done, store) =>
    let calls := (DirectCalls.ofSpecs done.registry m.registration.directCalls store).1
    let report := done.report.includeUnbound done.registry.order calls.unbound
    let registered := report.registered.length
    let failed := report.failedFamilies.length
    let skipped := report.skipped.length
    .ok ([s!"  Families:    {registered} registered, {failed} failed, {skipped} skipped",
        s!"  Types:       {done.registry.types.length}",
        s!"  Fingerprint: {Outcome.short report.fingerprint}"]
      ++ report.failures.map (fun f => "  ! " ++ f.message)
      ++ ["", "--- Direct Calls ---"]
      ++ (if calls.calls.isEmpty && calls.failures.isEmpty then ["  none declared"] else [])
      ++ calls.calls.keys.map (fun name => s!"  {name}: bound")
      ++ calls.failures.map fun f => s!"  {f.subject}: failed: {f.error.message}")

/-- Goes through settings, library version and registration. -/
def diagnose (file : ManifestFile) (options : RuntimeOptions) : Written :=
  let (manifestLines, m) := diagnoseManifest file
  let opening :=
    ["=== Braid Doctor ===", "", s!"braid version: {programVersion}", "", "--- Manifest ---"] ++ manifestLines ++ [""]
  match runtime options with
  | .error e => ⟨opening, some e⟩
  | .ok store =>
    let library :=
      ["--- Foreign Library ---", s!"  Version:     {store.version.render}",
        diagnoseRequirement m.bridge store.version, ""]
    let conversions := ["--- Conversions ---"] ++ diagnoseConversions m.bridge.policy ++ [""]
    let lines := opening ++ library ++ conversions ++ ["--- Registration ---"]
    match diagnoseRegistration m store with
    | .ok more => ⟨lines ++ more, none⟩
    | .error e => ⟨lines, some e⟩

/-! ### The whole -/

/-- What a command writes that writes all or nothing. -/
def Written.of : Except String (List String) → Written
  | .ok lines => ⟨lines, none⟩
  | .error e => ⟨[], some e⟩

/-- Lines, each with its end. -/
def unlines (lines : List String) : String := String.join (lines.map (· ++ "\n"))

/-- The exit state of a command. -/
def Written.exitState (w : Written) : ExitState :=
  match w.error with
  | none => ⟨0, unlines w.lines, ""⟩
  | some e => ⟨1, unlines w.lines, s!"error: {e}\n"⟩

/-- How to use the program. -/
def usage : List String := [
  "Usage: braid <COMMAND>", "",
  "Commands:",
  "  types      Register the type catalog and list the resulting host types",
  "  translate  Translate a foreign type spelling to its host type",
  "  doctor     Check configuration, library version and registration"]

/-- Carries out a request. The manifest is used by the commands that register. -/
def run (file : ManifestFile) : Request → ExitState
  | .help => ⟨0, unlines usage, ""⟩
  | .version => ⟨0, unlines [s!"braid {programVersion}"], ""⟩
  | .types options family format => (Written.of (listTypes file options family format)).exitState
  | .translate expr reverse => (Written.of (translate expr reverse)).exitState
  | .doctor options => (diagnose file options).exitState
  | .misuse => ⟨2, "", unlines usage⟩

end ForeignBridge.CommandLine
