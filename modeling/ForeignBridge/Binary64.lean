import ForeignBridge.Decimal.Shortest

/-! # 64-bit floating-point numbers

A number is its IEEE 754 bit pattern: the sign, eleven bits of exponent and fifty-two of fraction. Two numbers
are told apart by their bits; `numericallyEqual` is the comparison of their values. -/

namespace ForeignBridge

/-- A binary64 number by its bits. -/
structure Binary64 where
  bits : UInt64
deriving DecidableEq, Repr, Hashable, Inhabited

namespace Binary64

/-- The sign bit is set. -/
def isNegative (x : Binary64) : Bool := x.bits >>> 63 == 1

/-- The biased exponent. -/
def exponentField (x : Binary64) : Nat := ((x.bits >>> 52) &&& 0x7ff).toNat

/-- The bits after the point. -/
def fractionField (x : Binary64) : Nat := (x.bits &&& 0xfffffffffffff).toNat

/-- The pattern stands for no number. -/
def isNaN (x : Binary64) : Bool := x.exponentField == 0x7ff && x.fractionField != 0

/-- An infinity of either sign. -/
def isInfinite (x : Binary64) : Bool := x.exponentField == 0x7ff && x.fractionField == 0

/-- A zero of either sign. -/
def isZero (x : Binary64) : Bool := x.exponentField == 0 && x.fractionField == 0

/-- Equality of values: the zeros are equal, and a pattern for no number differs from everything. -/
def numericallyEqual (x y : Binary64) : Bool :=
  !x.isNaN && !y.isNaN && (x == y || (x.isZero && y.isZero))

/-- The bit before the point, which a normal number does not store. -/
def hiddenBit : Nat := 0x10000000000000

/-- The absolute value of a finite number other than zero. -/
def fraction (x : Binary64) : Decimal.Fraction :=
  if x.exponentField = 0 then ⟨x.fractionField, -1074, false⟩
  else ⟨x.fractionField + hiddenBit, x.exponentField - 1075, x.fractionField == 0 && x.exponentField != 1⟩

/-- The fewest digits that read back, in positional notation; the sign of a zero is kept. -/
def render (x : Binary64) : String :=
  if x.isNaN then "NaN"
  else
    let size :=
      if x.isInfinite then "inf"
      else if x.isZero then "0"
      else Decimal.positional (Decimal.shortest x.fraction)
    if x.isNegative then "-" ++ size else size

end Binary64

end ForeignBridge
