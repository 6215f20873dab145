import ForeignBridge.Fingerprint
import ForeignBridge.Registration.Registry

/-! # Reports of registration

A failure is recorded with its subject and does not keep the rest from being registered. The report lists what was
tried, what was registered, what was left out and what failed, with a fingerprint of the outcome. -/

namespace ForeignBridge

/-- What a failure is about. -/
inductive FailureLevel where
  /-- A whole family, of which nothing was registered. -/
  | family
  /-- A single instance. -/
  | type
  /-- A direct call. -/
  | directCall
deriving DecidableEq, Repr

/-- The name of a level. -/
def FailureLevel.name : FailureLevel → String
  | .family => "family"
  | .type => "instance"
  | .directCall => "direct-call"

/-- Something that could not be registered. -/
structure Failure where
  level : FailureLevel
  /-- The family, the type expression or the direct call. -/
  subject : String
  error : RegistrationError
deriving DecidableEq, Repr

/-- The subject and what went wrong. -/
def Failure.message (f : Failure) : String := f.subject ++ ": " ++ f.error.message

/-- The families among the subjects of failures, which failed as a whole. -/
def Failure.families (failures : List Failure) : List String :=
  (failures.filter (·.level == .family)).map Failure.subject

/-- The outcome of registration. -/
structure Report where
  /-- The families in the order in which they were tried. -/
  order : List String
  /-- The families that were registered. -/
  registered : List String
  /-- The families that the settings leave out. -/
  skipped : List String
  failures : List Failure
  /-- The direct calls that could not be bound, once they are included. -/
  unboundCalls : List String
  fingerprint : String
deriving DecidableEq, Repr

namespace Report

/-- Nothing failed. -/
def isClean (r : Report) : Bool := r.failures.isEmpty

/-- The families that failed as a whole. -/
def failedFamilies (r : Report) : List String := Failure.families r.failures

/-- The report with the direct calls that could not be bound, which change the fingerprint. -/
def includeUnbound (r : Report) (types : List TypeExpr) (unbound : List String) : Report :=
  let unbound := unbound.mergeSort fun a b => decide (a ≤ b)
  { r with unboundCalls := unbound, fingerprint := (Outcome.mk types r.failedFamilies unbound).fingerprint }

end Report

end ForeignBridge
