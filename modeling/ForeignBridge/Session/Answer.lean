import ForeignBridge.Bridge
import ForeignBridge.Registration.DirectCall
import ForeignBridge.Settings.Error

/-! # Answers of sessions

The answer to a step is a snapshot: it has handles in place of cells and can be shown without the store. -/

namespace ForeignBridge.Session

/-- A bound direct call, as it is shown. -/
structure DirectCallView where
  name : String
  params : List TypeExpr
  returns : Option TypeExpr
  function : Handle
  autoConvert : Bool
deriving Repr

/-- What a step answers. -/
inductive Answer where
  | done
  | handle (h : Handle)
  | maybeHandle (h : Option Handle)
  | value (v : Snapshot)
  | cell (h : Handle) (bound : Bool)
  | module (m : ModuleRef)
  | number (n : Nat)
  | flag (b : Bool)
  | text (s : String)
  | maybeText (s : Option String)
  | texts (ss : List String)
  | slots (rows : List (Handle × Nat))
  | datum (data : Datum Handle)
  | phase (p : Phase)
  | policy (p : ConversionPolicy)
  | reading (h : Handle) (bound : Bool)
  | valueInfo (v : Snapshot)
  | typeEntry (h : Option Handle)
  | family (entry : Option (Template × Handle))
  | registry (families : List String) (size : Nat) (types : List (TypeExpr × Handle))
  | report (r : Option Report)
  | directCalls (calls : List DirectCallView) (failures : List Failure)

/-- Why a step failed. -/
inductive StepError where
  /-- The step refers to a variable that is missing or holds something else. -/
  | misused (name : String)
  | typeText (e : TypeSyntaxError)
  | settings (e : SettingsError)
  | alreadyBound (e : AlreadyBound)
  | bridge (e : BridgeError)
  | registration (e : RegistrationError)

/-- What went wrong, in words. -/
def StepError.message : StepError → String
  | .misused name => s!"variable {name} cannot be used here"
  | .typeText e => e.message
  | .settings e => e.message
  | .alreadyBound e => e.message
  | .bridge e => e.message
  | .registration e => e.message

end ForeignBridge.Session
