import ForeignBridge.Bridge
import ForeignBridge.Catalog
import ForeignBridge.Registration.Placement
import ForeignBridge.Registration.Report
import ForeignBridge.Settings.Registration

/-! # Registration

Registration runs once in the life of a bridge. The families that the settings keep are registered in the order of their
dependencies. Then every requested instance is registered, shallower types first, so that each parameter is there before
the types that are built over it. What fails is recorded, and the rest goes on. In the end the bridge is open for calls.

An instance is requested by the template that lists it, or by the settings. A request of the settings belongs to the
first extension that claims it, or else to the family it is an instance of; it counts only if that one is registered. -/

namespace ForeignBridge

namespace Registration

/-! ### Requests -/

/-- An instance that is to be registered. -/
structure Pending where
  type : TypeExpr
  /-- The template that must be registered. -/
  owner : String
  /-- The settings ask for it, not the catalog. -/
  configured : Bool
deriving DecidableEq, Repr

/-- The instances that a template lists. -/
def listedBy (t : Template) : List (Except Failure Pending) :=
  t.instances.map fun text =>
    match TypeExpr.ofString text with
    | .ok type => .ok ⟨type, t.family, false⟩
    | .error e => .error ⟨.type, text, .malformed e⟩

/-- The template that an instance belongs to. -/
def owner? (templates : List Template) (type : TypeExpr) : Option Template :=
  (templates.find? (·.claims type)).or (templates.find? fun t => !t.isExtension && t.family == type.name)

/-- An instance that the settings ask for. -/
def configured (templates : List Template) (settings : RegistrationSettings) (type : TypeExpr) :
    Except Failure Pending :=
  match owner? templates type with
  | none => .error ⟨.type, type.render, .unknownFamily type.name⟩
  | some t =>
    if settings.isDisabled t.family then .error ⟨.type, type.render, .unavailable t.family .disabled⟩
    else .ok ⟨type, t.family, true⟩

/-- The templates that the settings keep. -/
def kept (templates : List Template) (settings : RegistrationSettings) : List Template :=
  templates.filter (!settings.isDisabled ·.family)

/-- The families that the settings leave out. -/
def skipped (templates : List Template) (settings : RegistrationSettings) : List String :=
  (templates.filter (settings.isDisabled ·.family)).map Template.family

/-- Every request, those of the catalog first. -/
def requests (templates : List Template) (settings : RegistrationSettings) : List (Except Failure Pending) :=
  (kept templates settings).flatMap listedBy ++ settings.instances.map (configured templates settings)

/-- The requests that are refused at once. -/
def refused (rs : List (Except Failure Pending)) : List Failure :=
  rs.filterMap fun
    | .error f => some f
    | .ok _ => none

/-- A shallower type before a deeper one, and types of one depth by their order. -/
def comesBefore (a b : Pending) : Bool :=
  ((compare a.type.depth b.type.depth).then (compare a.type b.type)).isLE

/-- The other requests, shallower types first. -/
def accepted (rs : List (Except Failure Pending)) : List Pending :=
  (rs.filterMap Except.toOption).mergeSort comesBefore

/-! ### The two passes -/

/-- What has been done so far. -/
structure Progress where
  registry : Registry
  store : Store
  registered : List String
  failures : List Failure

/-- Registers one family. -/
def tryFamily (t : Template) (p : Progress) : Progress :=
  match p.registry.addFamily t p.store with
  | (.ok (), registry, store) => { p with registry, store, registered := p.registered ++ [t.family] }
  | (.error e, registry, store) => { p with registry, store, failures := p.failures ++ [⟨.family, t.family, e⟩] }

/-- Registers the families of a list of names, each by the last template of that name. -/
def registerFamilies (templates : List Template) (order : List String) (p : Progress) : Progress :=
  order.foldl (fun p name =>
    match templates.reverse.find? (·.family == name) with
    | some t => tryFamily t p
    | none => p) p

/-- Registers one instance. Where its owner is missing, only a request of the settings is a failure of its own. -/
def tryInstance (p : Progress) (i : Pending) : Progress :=
  if !p.registered.contains i.owner then
    if i.configured then
      { p with failures := p.failures ++ [⟨.type, i.type.render, .unavailable i.owner .unregistered⟩] }
    else p
  else
    match p.registry.instantiate i.type p.store with
    | (.ok _, registry, store) => { p with registry, store }
    | (.error e, registry, store) => { p with registry, store, failures := p.failures ++ [⟨.type, i.type.render, e⟩] }

/-- One failure for each family that could not be placed. -/
def cycleFailures (placement : Placement) : List Failure :=
  placement.cyclic.map fun family => ⟨.family, family, .dependencyCycle placement.cyclic⟩

/-- Registers the families and instances of a list of templates under settings. -/
def registerAll (templates : List Template) (settings : RegistrationSettings) (s : Store) : Progress :=
  let rs := requests templates settings
  let families := kept templates settings
  let placement := Placement.ofTemplates families
  let start : Progress := ⟨.empty, s, [], refused rs ++ cycleFailures placement⟩
  (accepted rs).foldl tryInstance (registerFamilies families placement.order start)

/-- The report of what was done. -/
def report (templates : List Template) (settings : RegistrationSettings) (p : Progress) : Report :=
  { order := (Placement.ofTemplates (kept templates settings)).order
    registered := p.registered
    skipped := skipped templates settings
    failures := p.failures
    unboundCalls := []
    fingerprint := (Outcome.mk p.registry.order (Failure.families p.failures) []).fingerprint }

end Registration

/-- What registration leaves behind, besides the store. -/
structure Registered where
  bridge : Bridge
  registry : Registry
  report : Report

/-- Registers the catalog and opens the bridge, by completing the guard of the registration. Fails only where
registration is running or complete. -/
def Bridge.register (b : Bridge) (settings : RegistrationSettings) (s : Store) : Except BridgeError Registered × Store :=
  match b.begin with
  | .error e => (.error e, s)
  | .ok (guard, b) =>
    let p := Registration.registerAll Catalog.templates settings s
    (.ok ⟨guard.complete b, p.registry, Registration.report Catalog.templates settings p⟩, p.store)

end ForeignBridge
