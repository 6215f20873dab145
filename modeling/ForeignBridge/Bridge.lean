import ForeignBridge.Bridge.ModulePath
import ForeignBridge.Conversion.FromForeign
import ForeignBridge.Conversion.ToForeign
import ForeignBridge.Store.Crossing

/-! # The bridge

The bridge is the host's side of the link to the foreign runtime: a conversion policy and a phase. Registration runs
once. Who begins it gets a guard, and has to complete it; a guard that is dropped before leads back to the start. Calls
flow only when registration is complete.

A call converts the arguments, crosses, checks for a fault and only then converts the result. The converted arguments are
held until the call is over. -/

namespace ForeignBridge

/-- How far the one registration of a bridge has come. -/
inductive Phase where
  | uninitialized
  | registering
  | ready
deriving DecidableEq, Repr

/-- The name of a phase. -/
def Phase.name : Phase → String
  | .uninitialized => "uninitialized"
  | .registering => "registering"
  | .ready => "ready"

/-- The host's side of the link to a foreign runtime. -/
structure Bridge where
  policy : ConversionPolicy
  phase : Phase
deriving DecidableEq, Repr

/-- The guard of a registration that was begun, with the flag that `complete` sets. -/
structure InitGuard where
  completed : Bool
deriving DecidableEq, Repr

/-- A foreign function for calls from the host; the flag asks for conversion of its arguments and result. -/
structure Callable where
  cell : CellId
  autoConvert : Bool
deriving DecidableEq, Repr

namespace InitGuard

/-- What the end of a guard does to its bridge: registration is given up, unless it was completed. -/
def drop (guard : InitGuard) (b : Bridge) : Bridge :=
  if guard.completed then b else { b with phase := .uninitialized }

/-- Marks registration as finished and opens the bridge. The guard ends with it. -/
def complete (guard : InitGuard) (b : Bridge) : Bridge :=
  { guard with completed := true }.drop { b with phase := .ready }

end InitGuard

namespace Bridge

/-- A bridge before its registration. -/
def ofPolicy (policy : ConversionPolicy) : Bridge := ⟨policy, .uninitialized⟩

/-- Calls may flow. -/
def isReady (b : Bridge) : Bool := b.phase == .ready

/-! ### Phases -/

/-- Enters registration, and gives out the guard. -/
def begin (b : Bridge) : Except BridgeError (InitGuard × Bridge) :=
  match b.phase with
  | .registering => .error .registrationRunning
  | .ready => .error .alreadyInitialized
  | .uninitialized => .ok (⟨false⟩, { b with phase := .registering })

/-! ### Values -/

/-- A foreign object for a handle, which gets a root. -/
def holdObject (h : Handle) (s : Store) : Value CellId × Store := ConversionPolicy.object h s

/-- A foreign function for a handle, which gets a root. -/
def holdFunction (h : Handle) (autoConvert : Bool) (s : Store) : Value CellId × Store :=
  let (c, s) := s.hold h
  (.function c autoConvert, s)

/-- A box around a host value, whatever the policy. -/
def box (v : Value CellId) (s : Store) : CellId × Store := ConversionPolicy.place Store.construct (.host v) s

/-- A foreign function for the function at a dotted path. -/
def functionAt (path : String) (autoConvert : Bool) (s : Store) : Except BridgeError (Value CellId) × Store :=
  match s.resolveFunction path with
  | .error e => (.error e, s)
  | .ok h =>
    let (v, s) := holdFunction h autoConvert s
    (.ok v, s)

/-- The result of a crossing as a host value: converted, or as a foreign object. -/
def receive (b : Bridge) (autoConvert : Bool) (h : Handle) (s : Store) : Except BridgeError (Value CellId) × Store :=
  if autoConvert then b.policy.fromForeign h s
  else
    let (v, s) := holdObject h s
    (.ok v, s)

/-! ### Crossings -/

/-- The policy that arguments are converted by: native values are boxed where no conversion is asked for. -/
def argumentPolicy (b : Bridge) (autoConvert : Bool) : ConversionPolicy :=
  if autoConvert then b.policy else ConversionPolicy.boxing

/-- Converts arguments from left to right, none of them inside a container. -/
def convertArguments (p : ConversionPolicy) (args : List (Value CellId)) (s : Store) :
    Except BridgeError (List CellId) × Store :=
  p.toForeignItems Store.construct 0 args s

/-- What comes before a call: the bridge must be ready, and the arguments are converted. -/
def enter (b : Bridge) (f : Callable) (args : List (Value CellId)) (s : Store) :
    Except BridgeError (List CellId) × Store :=
  if !b.isReady then (.error .notInitialized, s)
  else convertArguments (b.argumentPolicy f.autoConvert) args s

/-- What comes after a crossing: the cells that were held for it are released, and the result is received. -/
def leave (b : Bridge) (autoConvert : Bool) (held : List CellId) (crossed : Except BridgeError Handle × Store) :
    Except BridgeError (Value CellId) × Store :=
  let (outcome, s) := crossed
  let s := s.releaseAll held
  match outcome with
  | .error e => (.error e, s)
  | .ok h => b.receive autoConvert h s

/-- Calls a foreign function. -/
def invoke (b : Bridge) (f : Callable) (args : List (Value CellId)) (s : Store) :
    Except BridgeError (Value CellId) × Store :=
  match b.enter f args s with
  | (.error e, s) => (.error e, s)
  | (.ok held, s) => b.leave f.autoConvert held (s.crossing (Store.call (s.read f.cell) (held.map s.read)))

/-- Reads a field of a foreign object or function. -/
def readField (b : Bridge) (v : Value CellId) (name : String) (autoConvert : Bool) (s : Store) :
    Except BridgeError (Value CellId) × Store :=
  match v.reference? with
  | none => (.error (.notForeign v.tag), s)
  | some c => b.leave autoConvert [] (s.crossing (Store.readField (s.read c) name))

end Bridge

end ForeignBridge
