import ForeignBridge.TypeExpr

/-! # Settings of registration

Which families are left out, which instances are registered besides those of the catalog, and which foreign functions
are bound under a fixed signature. -/

namespace ForeignBridge

/-- A foreign function to be bound under a fixed signature. -/
structure DirectCallSpec where
  /-- The name of the call for the host. -/
  name : String
  /-- The dotted path of the foreign function. -/
  function : String
  params : List TypeExpr
  /-- The type of the result, if it is checked. -/
  returns : Option TypeExpr
  /-- Arguments and result are converted. -/
  autoConvert : Bool
deriving DecidableEq, Repr

/-- What registration is asked to do. -/
structure RegistrationSettings where
  disabled : List String
  instances : List TypeExpr
  directCalls : List DirectCallSpec
deriving DecidableEq, Repr

namespace RegistrationSettings

/-- The catalog as it is. -/
def default : RegistrationSettings := ⟨[], [], []⟩

/-- The family is left out. -/
def isDisabled (settings : RegistrationSettings) (family : String) : Bool := settings.disabled.contains family

end RegistrationSettings

end ForeignBridge
