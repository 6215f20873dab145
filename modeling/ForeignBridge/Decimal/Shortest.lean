/-! # Shortest decimals

A positive binary fraction `m · 2 ^ q` stands for every real that rounds to it: the reals up to half a unit
away on each side, the ends included exactly when `m` is even. Below a power of two the lower half unit is
half as wide. Among the decimals in that interval `shortest` takes one with the fewest digits, and among those
the nearest to the value; of two that are equally near, the upper.

For each count of digits only the two neighbours of the value on that decimal grid have to be tried: if any
point of the grid lies in the interval, so does one of them. -/

namespace ForeignBridge.Decimal

/-- The decimal `digits · 10 ^ exponent`. -/
structure Numeral where
  digits : Nat
  exponent : Int
deriving DecidableEq, Repr

/-- A positive binary fraction `mantissa · 2 ^ exponent`; `narrowBelow` when the next smaller value is only half
a unit away. -/
structure Fraction where
  mantissa : Nat
  exponent : Int
  narrowBelow : Bool
deriving DecidableEq, Repr

/-- `2 ^ e` as a quotient of naturals. -/
def powerOfTwo (e : Int) : Nat × Nat := (Nat.pow 2 e.toNat, Nat.pow 2 (-e).toNat)

/-- `10 ^ e` as a quotient of naturals. -/
def powerOfTen (e : Int) : Nat × Nat := (Nat.pow 10 e.toNat, Nat.pow 10 (-e).toNat)

/-- The number of digits before the decimal point, or minus the number of zeros after it. -/
def magnitude (f : Fraction) : Int :=
  let (up, down) := powerOfTwo f.exponent
  let num := f.mantissa * up
  if down ≤ num then (Nat.toDigits 10 (num / down)).length
  else 1 - (Nat.toDigits 10 (down / num)).length

/-- A quarter of a unit of `f` over `10 ^ e`, as a quotient of naturals. -/
def quarterUnit (f : Fraction) (e : Int) : Nat × Nat :=
  let (up, down) := powerOfTwo (f.exponent - 2)
  let (scaleUp, scaleDown) := powerOfTen e
  (up * scaleDown, down * scaleUp)

/-- The neighbour of `f` on the grid of `10 ^ e` that rounds to `f`, the nearer one where both do. -/
def onGrid (f : Fraction) (e : Int) : Option Nat :=
  let (a, b) := quarterUnit f e
  let value := 4 * f.mantissa * a
  let low := (4 * f.mantissa - if f.narrowBelow then 1 else 2) * a
  let high := (4 * f.mantissa + 2) * a
  let closed := f.mantissa % 2 == 0
  let below := value / b
  let above := below + 1
  let belowFits := if closed then low ≤ below * b else low < below * b
  let aboveFits := if closed then above * b ≤ high else above * b < high
  match decide belowFits, decide aboveFits with
  | true, true => if 2 * value < (below + above) * b then some below else some above
  | true, false => some below
  | false, true => some above
  | false, false => none

/-- The first grid with a hit, trying `digits` digits and more, for at most `tries` grids. -/
def search (f : Fraction) (digits : Nat) : Nat → Option Numeral
  | 0 => none
  | tries + 1 =>
    let e := magnitude f - digits
    match onGrid f e with
    | some d => some ⟨d, e⟩
    | none => search f (digits + 1) tries

/-- The digit count that always suffices for a double. -/
def enoughDigits : Nat := 17

/-- The shortest decimal that rounds to `f`. -/
def shortest (f : Fraction) : Numeral :=
  (search f 1 enoughDigits).getD ⟨0, 0⟩

/-- Positional text without an exponent: no point after a whole number, no zeros after the last digit. -/
def positional (d : Numeral) : String :=
  let written := Nat.toDigits 10 d.digits
  let kept := (written.reverse.dropWhile (· = '0')).reverse
  let point : Int := written.length + d.exponent
  if point ≤ 0 then
    String.ofList ('0' :: '.' :: List.replicate (-point).toNat '0' ++ kept)
  else if kept.length ≤ point.toNat then
    String.ofList (kept ++ List.replicate (point.toNat - kept.length) '0')
  else
    String.ofList (kept.take point.toNat ++ '.' :: kept.drop point.toNat)

end ForeignBridge.Decimal
