/-! # Handles

A handle names a slot of the foreign store. The host never looks inside; it hands the number back. Zero is the
null handle, which names no slot. -/

namespace ForeignBridge

/-- The number of a slot in the foreign store, or zero for none. -/
structure Handle where
  raw : Nat
deriving DecidableEq, Repr, Hashable, Inhabited

namespace Handle

/-- The handle that names no slot. -/
def null : Handle := ⟨0⟩

/-- The handle names no slot. -/
def isNull (h : Handle) : Bool := h.raw == 0

/-- Null by name; any other handle in at least eight lower-case hexadecimal digits. -/
def render (h : Handle) : String :=
  if h.isNull then "<null>"
  else
    let digits := Nat.toDigits 16 h.raw
    "0x" ++ String.ofList (List.replicate (8 - digits.length) '0' ++ digits)

end Handle

end ForeignBridge
