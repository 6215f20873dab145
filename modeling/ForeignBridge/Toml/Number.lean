import ForeignBridge.Toml.Scan
import ForeignBridge.Toml.Value

/-! # Numbers and dates in TOML

Integers in four bases, floats, and dates and times. Digits may be separated by single underscores. An integer has 64 bits
with a sign; a float must not be so large that it rounds to positive infinity. -/

namespace ForeignBridge.Toml

/-! ### Digits -/

/-- Reads digits, of which each may follow an underscore. -/
def digitsTail (isDigit : Char → Bool) : List Char → List Char × List Char
  | [] => ([], [])
  | '_' :: c :: rest =>
    if isDigit c then
      let (digits, rest) := digitsTail isDigit rest
      (c :: digits, rest)
    else ([], '_' :: c :: rest)
  | c :: rest =>
    if isDigit c then
      let (digits, rest) := digitsTail isDigit rest
      (c :: digits, rest)
    else ([], c :: rest)

/-- Reads one or more digits. -/
def digits? (isDigit : Char → Bool) : Scanner (List Char)
  | [] => none
  | c :: rest =>
    if isDigit c then
      let (digits, rest) := digitsTail isDigit rest
      some (c :: digits, rest)
    else none

/-- The value of digits in a base; letters count from ten. -/
def valueIn (base : Nat) (digits : List Char) : Nat :=
  digits.foldl (fun n c => base * n + (hexValue? c).getD 0) 0

/-- Reads a sign; the flag tells a minus. -/
def sign : List Char → Bool × List Char
  | '-' :: rest => (true, rest)
  | '+' :: rest => (false, rest)
  | rest => (false, rest)

/-- Reads a sign and decimal digits without leading zeros. -/
def decimal? : Scanner (Bool × List Char) := fun text =>
  let (negative, text) := sign text
  match text with
  | '0' :: rest => some ((negative, ['0']), rest)
  | _ => (digits? Char.isDigit text).map fun (digits, rest) => ((negative, digits), rest)

/-! ### Integers -/

/-- An integer of 64 bits with a sign. -/
def bounded? (i : Int) : Option Int :=
  if Int64.minValue.toInt ≤ i ∧ i ≤ Int64.maxValue.toInt then some i else none

/-- Reads digits of a base after its mark. -/
def based? (base : Nat) (isDigit : Char → Bool) : Scanner Int := fun text =>
  (digits? isDigit text).bind fun (digits, rest) => (bounded? (valueIn base digits)).map fun i => (i, rest)

/-- Reads an integer. -/
def integer? : Scanner Int
  | '0' :: 'x' :: rest => based? 16 (fun c => (hexValue? c).isSome) rest
  | '0' :: 'o' :: rest => based? 8 (fun c => '0' ≤ c && c ≤ '7') rest
  | '0' :: 'b' :: rest => based? 2 (fun c => c = '0' || c = '1') rest
  | text => (decimal? text).bind fun ((negative, digits), rest) =>
    let n : Int := valueIn 10 digits
    (bounded? (if negative then -n else n)).map fun i => (i, rest)

/-! ### Floats -/

/-- Reads the digits after a point. -/
def fraction? : Scanner (List Char)
  | '.' :: rest => digits? Char.isDigit rest
  | _ => none

/-- Reads a power of ten. -/
def power? : Scanner Int
  | c :: rest =>
    if c = 'e' || c = 'E' then
      let (negative, rest) := sign rest
      (digits? Char.isDigit rest).map fun (digits, rest) =>
        let n : Int := valueIn 10 digits
        (if negative then -n else n, rest)
    else none
  | [] => none

/-- The least number that rounds to infinity, half a unit above the greatest double. -/
def overflowBound : Nat := Nat.pow 2 1024 - Nat.pow 2 970

/-- The decimal `digits · 10 ^ exponent` rounds to infinity. Far from the bound the number of digits decides. -/
def overflows (digits : List Char) (exponent : Int) : Bool :=
  let significant := digits.dropWhile (· = '0')
  let magnitude : Int := significant.length + exponent
  if significant.isEmpty || magnitude < 300 then false
  else if 320 < magnitude then true
  else
    let n := valueIn 10 significant
    decide (overflowBound * Nat.pow 10 (-exponent).toNat ≤ n * Nat.pow 10 exponent.toNat)

/-- Reads `inf` or `nan`, with or without a sign. -/
def specialFloat? : Scanner Unit := fun text =>
  match (sign text).2 with
  | 'i' :: 'n' :: 'f' :: rest => some ((), rest)
  | 'n' :: 'a' :: 'n' :: rest => some ((), rest)
  | _ => none

/-- Reads a number with a fraction, a power of ten or both. -/
def finiteFloat? : Scanner Unit := fun text => do
  let ((negative, whole), rest) ← decimal? text
  let (fraction, exponent, rest) ←
    match fraction? rest with
    | some (fraction, rest) =>
      match power? rest with
      | some (e, rest) => some (fraction, e, rest)
      | none => some (fraction, 0, rest)
    | none => (power? rest).map fun (e, rest) => ([], e, rest)
  if !negative && overflows (whole ++ fraction) (exponent - fraction.length) then none
  else some ((), rest)

/-- Reads a float. -/
def float? : Scanner Unit := fun text => (finiteFloat? text).or (specialFloat? text)

/-! ### Dates and times -/

/-- Reads exactly `count` digits as a number in a range. -/
def fixed? (count low high : Nat) : Scanner Nat := fun text =>
  let digits := text.take count
  let n := valueIn 10 digits
  if digits.length = count && digits.all Char.isDigit && low ≤ n && n ≤ high then some (n, text.drop count) else none

/-- Reads a character. -/
def char? (c : Char) : List Char → Option (List Char)
  | d :: rest => if c = d then some rest else none
  | [] => none

/-- The number of days of a month. -/
def daysIn (year month : Nat) : Nat :=
  let leap := year % 4 == 0 && (year % 100 != 0 || year % 400 == 0)
  if month = 2 then if leap then 29 else 28
  else if month = 4 || month = 6 || month = 9 || month = 11 then 30
  else 31

/-- Reads a date. -/
def date? (text : List Char) : Option (List Char) := do
  let (year, rest) ← fixed? 4 0 9999 text
  let (month, rest) ← fixed? 2 1 12 (← char? '-' rest)
  let (_, rest) ← fixed? 2 1 (daysIn year month) (← char? '-' rest)
  some rest

/-- Leaves out a point and the digits after it, if there are any. -/
def skipFraction : List Char → List Char
  | '.' :: c :: rest => if c.isDigit then rest.dropWhile Char.isDigit else '.' :: c :: rest
  | text => text

/-- Reads a time of day; a minute may have a sixty-first second. -/
def time? (text : List Char) : Option (List Char) := do
  let (_, rest) ← fixed? 2 0 23 text
  let (_, rest) ← fixed? 2 0 59 (← char? ':' rest)
  let (_, rest) ← fixed? 2 0 60 (← char? ':' rest)
  some (skipFraction rest)

/-- Leaves out the offset of a time zone, if there is one. -/
def skipOffset : List Char → List Char
  | [] => []
  | c :: rest =>
    if c = 'Z' || c = 'z' then rest
    else if c = '+' || c = '-' then
      ((do
        let (_, after) ← fixed? 2 0 23 rest
        let (_, after) ← fixed? 2 0 59 (← char? ':' after)
        some after : Option (List Char))).getD (c :: rest)
    else c :: rest

/-- Leaves out a time of day after a date, if there is one. -/
def skipTime : List Char → List Char
  | [] => []
  | c :: rest =>
    if c = 'T' || c = 't' || c = ' ' then ((time? rest).map skipOffset).getD (c :: rest) else c :: rest

/-- Reads a date, a time or both. -/
def moment? (text : List Char) : Option (List Char) := ((date? text).map skipTime).or (time? text)

/-! ### Any of them -/

/-- The part of a text before its given end. -/
def writtenBefore (text rest : List Char) : String := String.ofList (text.take (text.length - rest.length))

/-- Reads a date, a float or an integer, whichever fits first. -/
def number? : Scanner Value := fun text =>
  match moment? text with
  | some rest => some (.moment (writtenBefore text rest), rest)
  | none =>
    match float? text with
    | some ((), rest) => some (.float (writtenBefore text rest), rest)
    | none => (integer? text).map fun (i, rest) => (.integer i, rest)

end ForeignBridge.Toml
