import ForeignBridge.Bridge.Error
import ForeignBridge.TypeExpr.Reader
import ForeignBridge.Version.Requirement

/-! # Errors of registration

Why a family, an instance or a direct call cannot be registered or used, and the wording of each case. -/

namespace ForeignBridge

/-- Why a family cannot be registered. -/
inductive Unavailability where
  /-- A required family is not registered. -/
  | requires (family : String)
  /-- The version requirement of the template cannot be read. -/
  | malformedRequirement (text : String)
  /-- The foreign library does not satisfy the version requirement. -/
  | library (required : Version.Requirement) (found : Version)
  /-- The foreign runtime does not provide the family. -/
  | noForeignType (name : String)
  /-- The settings leave the family out. -/
  | disabled
  /-- The family was not registered. -/
  | unregistered
deriving DecidableEq, Repr

/-- What stands in the way, in words. -/
def Unavailability.message : Unavailability → String
  | .requires family => s!"requires {family}, which is not registered"
  | .malformedRequirement text => s!"invalid version requirement '{text}'"
  | .library required found => s!"needs library {required.render}, found {found.render}"
  | .noForeignType name => s!"foreign runtime has no type '{name}'"
  | .disabled => "disabled by configuration"
  | .unregistered => "family is not registered"

/-- Which value of a direct call is checked. -/
inductive Position where
  /-- The argument at this place, counted from zero. -/
  | argument (index : Nat)
  | result
deriving DecidableEq, Repr

/-- The name of a position. -/
def Position.name : Position → String
  | .argument index => s!"argument {index + 1}"
  | .result => "result"

/-- Why a direct call is refused. -/
inductive CallRefusal where
  /-- No direct call has that name. -/
  | unknown
  | argumentCount (expected : Nat) (found : Nat)
  /-- A value, shown here, has no registered type. -/
  | untyped (place : Position) (value : String) (expected : TypeExpr)
  | wrongType (place : Position) (found : TypeExpr) (expected : TypeExpr)
deriving DecidableEq, Repr

/-- What is wrong with the call, in words. -/
def CallRefusal.message : CallRefusal → String
  | .unknown => "no direct call with this name is registered"
  | .argumentCount expected found => s!"expected {expected} argument(s), got {found}"
  | .untyped place value expected =>
    s!"{place.name} {value} has no registered type, expected {expected.render}"
  | .wrongType place found expected => s!"{place.name} has type {found.render}, expected {expected.render}"

/-- Why registering or using a registered type failed. -/
inductive RegistrationError where
  /-- A parameter of a type is not registered; `owner` is the type, or the direct call that names it. -/
  | unregisteredParameter (owner : String) (parameter : TypeExpr)
  | arityMismatch (family : String) (expected : Nat) (found : Nat)
  | unknownFamily (name : String)
  | unavailable (family : String) (cause : Unavailability)
  /-- The families depend on one another, or on such families. -/
  | dependencyCycle (families : List String)
  /-- A value, shown here, has no registered type. -/
  | noHostType (value : String)
  | directCall (name : String) (cause : CallRefusal)
  | bridge (e : BridgeError)
  | malformed (e : TypeSyntaxError)
deriving DecidableEq, Repr

/-- What went wrong, in words. -/
def RegistrationError.message : RegistrationError → String
  | .unregisteredParameter owner parameter =>
    s!"cannot instantiate {owner}: parameter type {parameter.render} is not registered"
  | .arityMismatch family expected found => s!"{family} takes {expected} type parameter(s), got {found}"
  | .unknownFamily name => s!"unknown type family: {name}"
  | .unavailable family cause => s!"type family {family} is unavailable: {cause.message}"
  | .dependencyCycle families => "dependency cycle among type families: " ++ ", ".intercalate families
  | .noHostType value => s!"no host type registered for {value}"
  | .directCall name cause => s!"direct call '{name}': {cause.message}"
  | .bridge e => e.message
  | .malformed e => e.message

end ForeignBridge
