import ForeignBridge.Bridge
import ForeignBridge.Registration.Report
import ForeignBridge.Settings.Registration

/-! # Direct calls

A direct call is a foreign function under a fixed signature. The function is found once, when the call is bound; the types
of arguments and result are checked at each call, the arguments before anything crosses to the foreign runtime. A type
named `Any` in a signature accepts every value.

A direct call that cannot be bound is recorded and does not affect the others. -/

namespace ForeignBridge

/-- A bound direct call. -/
structure DirectCall where
  name : String
  function : Callable
  params : List TypeExpr
  returns : Option TypeExpr
deriving DecidableEq, Repr

/-- The direct calls that were bound, by name, and those that could not be. -/
structure DirectCalls where
  calls : Keyed DirectCall
  failures : List Failure
deriving Repr

namespace DirectCall

/-- The type accepts every value. -/
def isAny (t : TypeExpr) : Bool := t.name == "Any"

/-- The value at a place has the declared type. -/
def check (c : DirectCall) (r : Registry) (s : Store) (place : Position) (expected : TypeExpr) (v : Value CellId) :
    Except RegistrationError Unit :=
  if isAny expected then .ok ()
  else
    match r.typeOfValue s v with
    | .error _ => .error (.directCall c.name (.untyped place (Snapshot.render (s.snapshot v)) expected))
    | .ok found => if found = expected then .ok () else .error (.directCall c.name (.wrongType place found expected))

/-- The arguments from the place `index` on have the declared types. -/
def checkArguments (c : DirectCall) (r : Registry) (s : Store) (index : Nat) :
    List TypeExpr → List (Value CellId) → Except RegistrationError Unit
  | t :: ts, v :: vs =>
    match c.check r s (.argument index) t v with
    | .ok () => c.checkArguments r s (index + 1) ts vs
    | .error e => .error e
  | _, _ => .ok ()

/-- The number of arguments and their types are as declared. -/
def accepts (c : DirectCall) (r : Registry) (s : Store) (args : List (Value CellId)) : Except RegistrationError Unit :=
  if args.length ≠ c.params.length then .error (.directCall c.name (.argumentCount c.params.length args.length))
  else c.checkArguments r s 0 c.params args

/-- Checks the arguments, calls the function and checks the result, which is released if it is refused. -/
def invoke (c : DirectCall) (b : Bridge) (r : Registry) (args : List (Value CellId)) (s : Store) :
    Except RegistrationError (Value CellId) × Store :=
  match c.accepts r s args with
  | .error e => (.error e, s)
  | .ok () =>
    match b.invoke c.function args s with
    | (.error e, s) => (.error (.bridge e), s)
    | (.ok v, s) =>
      match c.returns with
      | none => (.ok v, s)
      | some expected =>
        match c.check r s .result expected v with
        | .ok () => (.ok v, s)
        | .error e => (.error e, s.releaseAll v.references)

end DirectCall

namespace DirectCalls

/-- No direct calls. -/
def empty : DirectCalls := ⟨[], []⟩

/-- The first declared type that is neither registered nor accepts everything. -/
def unregistered? (r : Registry) (spec : DirectCallSpec) : Option TypeExpr :=
  (spec.params ++ spec.returns.toList).find? fun t => !DirectCall.isAny t && !r.isRegistered t

/-- Finds the function of a direct call and holds it. -/
def bind (r : Registry) (spec : DirectCallSpec) (s : Store) : Except RegistrationError DirectCall × Store :=
  match unregistered? r spec with
  | some t => (.error (.unregisteredParameter spec.name t), s)
  | none =>
    match s.resolveFunction spec.function with
    | .error e => (.error (.bridge e), s)
    | .ok h =>
      let (c, s) := s.hold h
      (.ok ⟨spec.name, ⟨c, spec.autoConvert⟩, spec.params, spec.returns⟩, s)

/-- Binds one more direct call; an earlier one of the same name is released. -/
def add (r : Registry) (found : DirectCalls × Store) (spec : DirectCallSpec) : DirectCalls × Store :=
  let (calls, s) := found
  match bind r spec s with
  | (.ok call, s) =>
    let previous := (calls.calls.get? spec.name).toList.map (·.function.cell)
    (⟨calls.calls.insert spec.name call, calls.failures⟩, s.releaseAll previous)
  | (.error e, s) => (⟨calls.calls, calls.failures ++ [⟨.directCall, spec.name, e⟩]⟩, s)

/-- Binds direct calls one after the other. -/
def ofSpecs (r : Registry) (specs : List DirectCallSpec) (s : Store) : DirectCalls × Store :=
  specs.foldl (add r) (empty, s)

/-- Invokes the direct call of a name. -/
def invoke (d : DirectCalls) (name : String) (b : Bridge) (r : Registry) (args : List (Value CellId)) (s : Store) :
    Except RegistrationError (Value CellId) × Store :=
  match d.calls.get? name with
  | none => (.error (.directCall name .unknown), s)
  | some call => call.invoke b r args s

/-- The cells that the direct calls hold. -/
def cells (d : DirectCalls) : List CellId := d.calls.map (·.2.function.cell)

/-- The names of the direct calls that could not be bound. -/
def unbound (d : DirectCalls) : List String := d.failures.map Failure.subject

end DirectCalls

end ForeignBridge
