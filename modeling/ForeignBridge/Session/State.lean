import ForeignBridge.Registration
import ForeignBridge.Registration.DirectCall
import ForeignBridge.Session.Answer

/-! # The state of a session

A session is a foreign store with a bridge, a registry, direct calls and named variables.

Every cell has its holders in the session: a variable holds the cells of what it was given, the registry and the direct
calls hold theirs, and a step holds the cells of its arguments and of its result until it ends. -/

namespace ForeignBridge

namespace Session

/-- What a step results in, and what a variable holds. -/
inductive Binding where
  | handle (h : Handle)
  | value (v : Value CellId)
  | cell (c : CellId)
  | module (m : ModuleRef)
  /-- Any other answer, as it was shown. -/
  | answer (a : Answer)

/-- The cells that a binding holds. -/
def Binding.cells : Binding → List CellId
  | .value v => v.references
  | .cell c => [c]
  | _ => []

/-- The handle behind a binding, if there is one. -/
def Binding.handle? (s : Store) : Binding → Option Handle
  | .handle h => some h
  | .value v => v.reference?.map s.read
  | .cell c => some (s.read c)
  | .module m => some m.handle
  | .answer _ => none

/-- The answer that shows a binding. -/
def Binding.toAnswer (s : Store) : Binding → Answer
  | .handle h => .handle h
  | .value v => .value (s.snapshot v)
  | .cell c => .cell (s.read c) (s.isBound c)
  | .module m => .module m
  | .answer a => a

end Session

/-- The state of a session. -/
structure Session where
  store : Store
  bridge : Bridge
  registry : Registry
  calls : DirectCalls
  /-- The report of the last registration. -/
  report : Option Report
  bindings : Keyed Session.Binding
  /-- The guard of a registration that a step has begun, until it is completed or dropped. -/
  guard : Option InitGuard
  /-- The cells that the running step holds. -/
  temporaries : List CellId

namespace Session

/-- A session over a store that provides the given families, in this order. -/
def start (version : Version) (families : List String) (policy : ConversionPolicy) (stack : Nat := 10000) : Session :=
  { store := Store.providing version families stack
    bridge := .ofPolicy policy
    registry := .empty
    calls := .empty
    report := none
    bindings := []
    guard := none
    temporaries := [] }

/-! ### Variables -/

/-- The cells that a variable holds: none if it is not there. -/
def heldBy (name : String) (s : Session) : List CellId := ((s.bindings.get? name).map Binding.cells).getD []

/-- Puts something into a variable; what the variable held before is released. -/
def assign (name : String) (b : Binding) (s : Session) : Session :=
  { s with bindings := s.bindings.insert name b, store := s.store.releaseAll (s.heldBy name) }

/-- Removes a variable, if it is there; what it held is released. -/
def unassign (name : String) (s : Session) : Session :=
  { s with bindings := s.bindings.erase name, store := s.store.releaseAll (s.heldBy name) }

/-! ### The guard -/

/-- Ends the guard, if there is one, in a way that acts on the bridge. -/
def endGuard (ending : InitGuard → Bridge → Bridge) (s : Session) : Session :=
  match s.guard with
  | some guard => { s with bridge := ending guard s.bridge, guard := none }
  | none => s

/-! ### Actions -/

/-- A computation over a session, which keeps its changes when it fails. -/
abbrev Action (α : Type) := ExceptT StepError (StateM Session) α

namespace Action

/-- Runs an operation of the store. -/
def onStore {α : Type} (f : Store → α × Store) : Action α := do
  let s ← get
  let (a, store) := f s.store
  set { s with store }
  pure a

/-- Changes the store. -/
def change (f : Store → Store) : Action Unit := onStore fun s => ((), f s)

/-- Asks the store. -/
def ask {α : Type} (f : Store → α) : Action α := do return f (← get).store

/-- Hands on a result or its error. -/
def lift {ε α : Type} (wrap : ε → StepError) : Except ε α → Action α
  | .ok a => pure a
  | .error e => throw (wrap e)

/-- Runs an operation of the store that may fail. -/
def tryStore {ε α : Type} (wrap : ε → StepError) (f : Store → Except ε α × Store) : Action α := do
  lift wrap (← onStore f)

/-- Keeps cells until the step ends. -/
def keep (cells : List CellId) : Action Unit :=
  modify fun s => { s with temporaries := s.temporaries ++ cells }

end Action

end Session

end ForeignBridge
