import ForeignBridge.Handle
import ForeignBridge.Value

/-! # Errors of the bridge

One constructor for each way in which an operation of the bridge can fail, and one function for the wording. -/

namespace ForeignBridge

/-- Why an operation of the bridge failed. -/
inductive BridgeError where
  /-- The foreign runtime raised a fault, described here. -/
  | foreignFault (description : String)
  /-- A dotted path leads to no namespace. -/
  | moduleNotFound (path : String)
  /-- The namespace has no member of that name. -/
  | memberNotFound (module : String) (name : String)
  /-- The path leads to something that is no function. -/
  | notCallable (path : String)
  /-- A native value stands where a foreign one is needed. -/
  | notForeign (tag : Value.Tag)
  /-- A call before registration is complete. -/
  | notInitialized
  /-- Registration is running already. -/
  | registrationRunning
  /-- Registration is complete already. -/
  | alreadyInitialized
  /-- A value nests deeper than the policy allows. -/
  | tooDeep (limit : Nat)
deriving DecidableEq, Repr

/-- What went wrong, in words. -/
def BridgeError.message : BridgeError → String
  | .foreignFault description => s!"foreign runtime error: {description}"
  | .moduleNotFound path => s!"module not found: {path}"
  | .memberNotFound module name => s!"'{name}' not found in module {module}"
  | .notCallable path => s!"'{path}' is not a callable foreign object"
  | .notForeign tag => s!"expected a foreign object, got a value of type {tag.name}"
  | .notInitialized => "bridge is not initialized; type registration has not completed"
  | .registrationRunning => "bridge initialization is already in progress"
  | .alreadyInitialized => "bridge is already initialized"
  | .tooDeep limit => s!"conversion depth limit of {limit} exceeded"

/-- A cell was bound a second time; `existing` is what it is bound to. -/
structure AlreadyBound where
  existing : Handle
deriving DecidableEq, Repr

/-- What went wrong, in words. -/
def AlreadyBound.message (e : AlreadyBound) : String :=
  s!"foreign cell is already bound to {e.existing.render}"

end ForeignBridge
