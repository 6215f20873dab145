import ForeignBridge.Session.Resolution
import ForeignBridge.Session.Step
import ForeignBridge.Settings.RegistrationReader

/-! # Sessions

A session runs steps one after the other, and goes on after one that fails. A step resolves its inputs, performs one
operation and answers with a snapshot of the result; the result goes into a variable, if one is named. What the step
still holds is released when it ends. -/

namespace ForeignBridge

namespace Session

namespace Action

/-! ### Results -/

/-- A result that is a handle. -/
def asHandle (f : Store → Handle × Store) : Action Binding := do return .handle (← onStore f)

/-- A result that is a cell. -/
def asCell (f : Store → CellId × Store) : Action Binding := do return .cell (← onStore f)

/-- A result that is a value. -/
def asValue (f : Store → Value CellId × Store) : Action Binding := do return .value (← onStore f)

/-- A result that is an answer of the store. -/
def asked (f : Store → Answer) : Action Binding := do return .answer (← ask f)

/-- A result that says nothing but that the step is done. -/
def finished (f : Store → Store) : Action Binding := do
  change f
  return .answer .done

/-! ### Registration -/

/-- The settings of an input. -/
def settings : SettingsInput → Action RegistrationSettings
  | .document source => lift .settings (RegistrationSettings.ofString source)
  | .lists disabled instances => do
    return { RegistrationSettings.default with disabled, instances := ← instances.mapM typeExpr }

/-- Puts a registry in place of the old one, which is released. -/
def setRegistry (r : Registry) : Action Unit :=
  modify fun s => { s with registry := r, store := s.store.releaseAll s.registry.cells }

/-- Binds direct calls in place of the old ones, which are released. -/
def setDirectCalls (specs : List DirectCallSpec) : Action Unit := do
  let s ← get
  let (calls, store) := DirectCalls.ofSpecs s.registry specs s.store
  set { s with calls, store := store.releaseAll s.calls.cells }

/-- Registers the catalog, and binds the direct calls that the settings declare. -/
def register (input : SettingsInput) : Action Report := do
  let settings ← settings input
  let s ← get
  let (outcome, store) := s.bridge.register settings s.store
  set { s with store }
  let done ← lift (fun e => .registration (.bridge e)) outcome
  setRegistry done.registry
  modify fun s => { s with bridge := done.bridge, report := some done.report }
  if !settings.directCalls.isEmpty then setDirectCalls settings.directCalls
  return done.report

/-- The direct call of an input. -/
def directCallSpec (input : DirectCallInput) : Action DirectCallSpec := do
  let params ← input.params.mapM typeExpr
  let returns ← input.returns.mapM typeExpr
  return ⟨input.name, input.function, params, returns, input.autoConvert⟩

/-- The direct calls as they are shown. -/
def directCallsView : Action Answer := do
  let s ← get
  let views := s.calls.calls.map fun (_, call) =>
    DirectCallView.mk call.name call.params call.returns (s.store.read call.function.cell) call.function.autoConvert
  return .directCalls views s.calls.failures

/-! ### Steps -/

/-- Runs an operation of the registry that may fail. -/
def tryRegistry {α : Type} (f : Registry → Store → Except RegistrationError α × Registry × Store) : Action α := do
  let s ← get
  let (outcome, registry, store) := f s.registry s.store
  set { s with registry, store }
  lift .registration outcome

/-- A foreign function for a call. -/
def callable (input : ValueInput) : Action Callable := do
  match ← value input with
  | .function c auto => return ⟨c, auto⟩
  | _ => throw (.misused "function")

/-- The function and the arguments of a call. -/
def callInputs (f : ValueInput) (args : List ValueInput) : Action (Callable × List (Value CellId)) := do
  let f ← callable f
  let args ← args.mapM value
  return (f, args)

/-- The function and the arguments of a call past the bridge. -/
def callHandles (f : HandleInput) (args : List HandleInput) : Action (Handle × List Handle) := do
  let f ← handle f
  let args ← args.mapM handle
  return (f, args)

/-- Performs a step. -/
def perform : Step → Action Binding
  | .provideFamily name => asHandle (Store.provideFamily name)
  | .defineModule path => asHandle (Store.defineModule path)
  | .defineFunction path name input => do
    let (body, captured) ← function input
    asHandle (Store.defineFunction path name captured body)
  | .defineGlobal path name data => do asHandle (Store.defineGlobal path name (← datum data))
  | .construct data => do asHandle (Store.construct (← datum data))
  | .create type fields => do
    let type ← handle type
    let fields ← fields.mapM fun (name, data) => do return (name, ← datum data)
    asHandle (Store.create type fields)
  | .raise message => finished (Store.raiseMessage message)
  | .raiseValue data => do finished (Store.raise (← datum data))
  | .recordCalls => finished Store.recordCalls
  | .callLog => asked fun s => .texts (s.callLog.map Event.name)
  | .root h => do
    let h ← handle h
    finished (·.root h)
  | .unroot h => do
    let h ← handle h
    finished (·.unroot h)
  | .rootCount h => do
    let h ← handle h
    asked fun s => .number (s.rootCount h)
  | .isLive h => do
    let h ← handle h
    asked fun s => .flag (s.isLive h)
  | .collect => do return .answer (.number (← onStore Store.collect))
  | .slots max => asked fun s =>
    .slots ((s.liveSlots.filter fun (h, _) => h.raw ≤ max).map fun (h, slot) => (h, slot.roots))
  | .libraryVersion => asked fun s => .text s.version.render
  | .pendingFault => do return .answer (.maybeHandle (← onStore Store.pendingFault))
  | .clearFault => finished Store.clearFault
  | .describe h => do
    let h ← handle h
    return .answer (.maybeText (← onStore (Store.describe h)))
  | .rootModule => return .handle Store.mainModule
  | .submodule h name => do
    let h ← handle h
    asked fun s => .maybeHandle (s.submodule? h name)
  | .member h name => do
    let h ← handle h
    asked fun s => .maybeHandle (s.member? h name)
  | .storeField h name => do
    let h ← handle h
    asHandle (Store.readField h name)
  | .isCallable h => do
    let h ← handle h
    asked fun s => .flag (s.isCallable h)
  | .storeCall h args => do
    let (h, args) ← callHandles h args
    asHandle (Store.call h args)
  | .inspect h => do
    let h ← handle h
    let data ← onStore (Store.inspect h)
    asked fun s => .datum (data.map s.read)
  | .typeOf h => do
    let h ← handle h
    return .handle (← ask (·.typeOf h))
  | .family name => asked fun s => .maybeHandle (s.family? name)
  | .applyFamily h params => do
    let h ← handle h
    asHandle (Store.applyFamily h (← params.mapM handle))
  | .takeFault => do
    tryStore .bridge Store.takeFault
    return .answer .done
  | .guardedCall h args => do
    let (h, args) ← callHandles h args
    return .handle (← tryStore .bridge (Store.crossing (Store.call h args)))
  | .guardedApply h params => do
    let h ← handle h
    let params ← params.mapM handle
    return .handle (← tryStore .bridge (Store.crossing (Store.applyFamily h params)))
  | .phase => do return .answer (.phase (← get).bridge.phase)
  | .begin => do
    let (guard, bridge) ← lift .bridge (← get).bridge.begin
    modify fun s => { s with bridge, guard := some guard }
    return .answer .done
  | .complete => do
    modify (·.endGuard InitGuard.complete)
    return .answer .done
  | .abandon => do
    modify (·.endGuard InitGuard.drop)
    return .answer .done
  | .holdObject h => do
    let h ← handle h
    asValue (Bridge.holdObject h)
  | .holdFunction h auto => do
    let h ← handle h
    asValue (Bridge.holdFunction h auto)
  | .holdCell h => do
    let h ← handle h
    asCell (Store.hold h)
  | .box v => do asCell (Bridge.box (← value v))
  | .resolveModule path => do return .module (← lift .bridge (← ask (·.resolveModule path)))
  | .resolveMember module name => do
    match ← lookup module with
    | .module m =>
      let h ← lift .bridge (← ask (·.resolveMember m name))
      asCell (Store.hold h)
    | _ => throw (.misused module)
  | .functionAt path auto => do return .value (← tryStore .bridge (Bridge.functionAt path auto))
  | .invoke f args => do
    let (f, args) ← callInputs f args
    let bridge := (← get).bridge
    return .value (← tryStore .bridge (bridge.invoke f args))
  | .readField v name auto => do
    let v ← value v
    let bridge := (← get).bridge
    return .value (← tryStore .bridge (bridge.readField v name auto))
  | .toForeign v policy => do
    let v ← value v
    let policy := policy.getD (← get).bridge.policy
    return .cell (← tryStore .bridge (policy.toForeign v))
  | .fromForeign h policy => do
    let h ← handle h
    let policy := policy.getD (← get).bridge.policy
    return .value (← tryStore .bridge (policy.fromForeign h))
  | .policy => do return .answer (.policy (← get).bridge.policy)
  | .newCell => asCell Store.newCell
  | .newBound h => do
    let h ← handle h
    asCell (Store.hold h)
  | .bind name h => do
    let c ← cellOf name
    let h ← handle h
    tryStore (fun existing => .alreadyBound ⟨existing⟩) fun s =>
      match s.bind c h with
      | .ok s => (.ok (), s)
      | .error existing => (.error existing, s)
    return .answer .done
  | .read name => do
    let c ← cellOf name
    asked fun s => .reading (s.read c) (s.isBound c)
  | .sameCell a b => do return .answer (.flag ((← cellOf a) == (← cellOf b)))
  | .value v => do
    let v ← value v
    asValue fun s => (v, s.retainAll v.references)
  | .copy name => do
    let b ← lookup name
    change (·.retainAll b.cells)
    return b
  | .drop name => do
    modify (·.unassign name)
    return .answer .done
  | .describeValue v => do
    let v ← value v
    asked fun s => .valueInfo (s.snapshot v)
  | .sameValue a b => do
    let a ← value a
    let b ← value b
    asked fun s => .flag (Snapshot.same (s.snapshot a) (s.snapshot b))
  | .newRegistry => do
    setRegistry .empty
    return .answer .done
  | .addFamily t => do
    tryRegistry (Registry.addFamily t)
    return .answer .done
  | .instantiate text => do
    let t ← typeExpr text
    return .handle (← tryRegistry (Registry.instantiate t))
  | .lookupType text => do
    let t ← typeExpr text
    let r := (← get).registry
    asked fun s => .typeEntry (r.lookup s t)
  | .hostType h => do
    let h ← handle h
    return .answer (.maybeText (((← get).registry.hostType? h).map TypeExpr.render))
  | .typeOfValue v => do
    let v ← value v
    let s ← get
    let t ← lift .registration (s.registry.typeOfValue s.store v)
    return .answer (.text t.render)
  | .registeredFamily name => do
    let s ← get
    return .answer (.family ((s.registry.families.get? name).map fun f => (f.template, s.store.read f.constructor)))
  | .registry => do
    let s ← get
    let types := s.registry.order.map fun t => (t, (s.registry.lookup s.store t).getD Handle.null)
    return .answer (.registry s.registry.families.keys s.registry.types.length types)
  | .register input => do return .answer (.report (some (← register input)))
  | .report => do return .answer (.report (← get).report)
  | .bindDirectCalls inputs => do
    setDirectCalls (← inputs.mapM directCallSpec)
    return .answer (← directCallsView)
  | .directCalls => do return .answer (← directCallsView)
  | .includeDirectCalls => do
    modify fun s =>
      { s with report := s.report.map fun r => r.includeUnbound s.registry.order s.calls.unbound }
    return .answer (.report (← get).report)
  | .directCall name args => do
    let args ← args.mapM value
    let s ← get
    return .value (← tryStore .registration (s.calls.invoke name s.bridge s.registry args))

end Action

/-- Ends a step: what it still holds is released. -/
def endStep (s : Session) : Session := { s with store := s.store.releaseAll s.temporaries, temporaries := [] }

/-- Runs a step and puts its result into a variable, if one is named. -/
def step (st : Step) (target : Option String) (s : Session) : Except StepError Answer × Session :=
  match (Action.perform st).run s with
  | (.error e, s) => (.error e, s.endStep)
  | (.ok result, s) =>
    let answer := result.toAnswer s.store
    let s :=
      match target with
      | some name => s.assign name result
      | none => { s with temporaries := s.temporaries ++ result.cells }
    (.ok answer, s.endStep)

/-- Steps, each with the variable for its result, if there is one. -/
abbrev Script := List (Step × Option String)

/-- The session after the steps of a script. -/
def run (script : Script) (s : Session) : Session := script.foldl (fun s (st, target) => (s.step st target).2) s

end Session

end ForeignBridge
