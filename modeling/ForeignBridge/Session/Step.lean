import ForeignBridge.Conversion
import ForeignBridge.Session.Input
import ForeignBridge.Template

/-! # Session steps

The operations that a session can be asked for. Type expressions and settings stand in a step as they are written. -/

namespace ForeignBridge.Session

/-- A direct call as it is declared in a step. -/
structure DirectCallInput where
  name : String
  function : String
  params : List String
  returns : Option String
  autoConvert : Bool
deriving DecidableEq, Repr

/-- What registration is asked to do in a step. -/
inductive SettingsInput where
  /-- A document. -/
  | document (source : String)
  | lists (disabled : List String) (instances : List String)
deriving DecidableEq, Repr

/-- An operation of a session. -/
inductive Step where
  -- the foreign store
  | provideFamily (name : String)
  | defineModule (path : String)
  | defineFunction (path : String) (name : String) (function : FunctionInput)
  | defineGlobal (path : String) (name : String) (data : DatumInput)
  | construct (data : DatumInput)
  | create (type : HandleInput) (fields : List (String × DatumInput))
  | raise (message : String)
  | raiseValue (data : DatumInput)
  | recordCalls
  | callLog
  | root (h : HandleInput)
  | unroot (h : HandleInput)
  | rootCount (h : HandleInput)
  | isLive (h : HandleInput)
  | collect
  | slots (max : Nat)
  | libraryVersion
  | pendingFault
  | clearFault
  | describe (h : HandleInput)
  | rootModule
  | submodule (h : HandleInput) (name : String)
  | member (h : HandleInput) (name : String)
  | storeField (h : HandleInput) (name : String)
  | isCallable (h : HandleInput)
  | storeCall (h : HandleInput) (args : List HandleInput)
  | inspect (h : HandleInput)
  | typeOf (h : HandleInput)
  | family (name : String)
  | applyFamily (h : HandleInput) (params : List HandleInput)
  -- crossings and the bridge
  | takeFault
  | guardedCall (h : HandleInput) (args : List HandleInput)
  | guardedApply (h : HandleInput) (params : List HandleInput)
  | phase
  | begin
  | complete
  | abandon
  | holdObject (h : HandleInput)
  | holdFunction (h : HandleInput) (autoConvert : Bool)
  | holdCell (h : HandleInput)
  | box (v : ValueInput)
  | resolveModule (path : String)
  | resolveMember (module : String) (name : String)
  | functionAt (path : String) (autoConvert : Bool)
  | invoke (function : ValueInput) (args : List ValueInput)
  | readField (v : ValueInput) (name : String) (autoConvert : Bool)
  | toForeign (v : ValueInput) (policy : Option ConversionPolicy)
  | fromForeign (h : HandleInput) (policy : Option ConversionPolicy)
  | policy
  -- cells and values
  | newCell
  | newBound (h : HandleInput)
  | bind (cell : String) (h : HandleInput)
  | read (cell : String)
  | sameCell (a : String) (b : String)
  | value (v : ValueInput)
  | copy (name : String)
  | drop (name : String)
  | describeValue (v : ValueInput)
  | sameValue (a : ValueInput) (b : ValueInput)
  -- registration and direct calls
  | newRegistry
  | addFamily (t : Template)
  | instantiate (type : String)
  | lookupType (type : String)
  | hostType (h : HandleInput)
  | typeOfValue (v : ValueInput)
  | registeredFamily (name : String)
  | registry
  | register (settings : SettingsInput)
  | report
  | bindDirectCalls (specs : List DirectCallInput)
  | directCalls
  | includeDirectCalls
  | directCall (name : String) (args : List ValueInput)

end ForeignBridge.Session
