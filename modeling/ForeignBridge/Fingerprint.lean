import ForeignBridge.Ascending
import ForeignBridge.Digest.Sha256
import ForeignBridge.TypeExpr.Token

/-! # Fingerprints

A fingerprint is a digest of the outcome of registration: the registered types, the families that failed and the direct
calls that could not be bound. Each of them gives one line; the lines are taken as a set and hashed in ascending order,
so neither order nor repetition matters. -/

namespace ForeignBridge

/-- The outcome of registration as far as fingerprints tell it. -/
structure Outcome where
  types : List TypeExpr
  failed : List String
  unbound : List String
deriving DecidableEq, Repr

namespace Outcome

/-- One line for each member of the outcome, ascending, each line once. -/
def lines (o : Outcome) : List String :=
  Ascending.ofList (o.types.map (fun t => s!"type {t.render}\n") ++ o.failed.map (fun f => s!"failed {f}\n")
    ++ o.unbound.map fun c => s!"unbound {c}\n")

/-- The bytes that are hashed. -/
def bytes (o : Outcome) : List UInt8 := (String.join o.lines).toUTF8.toList

/-- The digest of the outcome in hexadecimal digits. -/
def fingerprint (o : Outcome) : String := Digest.hex (Digest.sha256 o.bytes)

/-- The number of digits of a short fingerprint. -/
def shortLength : Nat := 12

/-- The beginning of a fingerprint, for display. -/
def short (fingerprint : String) : String := String.ofList (fingerprint.toList.take shortLength)

end Outcome

end ForeignBridge
