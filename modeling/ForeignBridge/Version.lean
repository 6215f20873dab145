import ForeignBridge.Text.Split

/-! # Library versions

A version has three numbers, a list of pre-release identifiers and a list of build identifiers. The numbers are 64
bits wide and have no leading zeros; an identifier is made of ASCII letters, digits and hyphens. -/

namespace ForeignBridge

/-- A dot-separated part of a pre-release or build label. -/
abbrev Identifier := List Char

/-- `major.minor.patch`, `-pre` and `+build`. -/
structure Version where
  major : Nat
  minor : Nat
  patch : Nat
  pre : List Identifier
  build : List Identifier
deriving DecidableEq, Repr

namespace Version

/-- The version of three numbers. -/
def ofNumbers (major minor patch : Nat) : Version := ⟨major, minor, patch, [], []⟩

/-! ### Text -/

/-- Identifiers separated by dots. -/
def renderIdentifiers (ids : List Identifier) : String :=
  ".".intercalate (ids.map String.ofList)

/-- The text of a version. -/
def render (v : Version) : String :=
  s!"{v.major}.{v.minor}.{v.patch}"
    ++ (if v.pre.isEmpty then "" else "-" ++ renderIdentifiers v.pre)
    ++ (if v.build.isEmpty then "" else "+" ++ renderIdentifiers v.build)

/-- The value of a list of decimal digits. -/
def decimalValue (digits : List Char) : Nat :=
  digits.foldl (fun n c => 10 * n + (c.toNat - '0'.toNat)) 0

/-- Reads a number of 64 bits without leading zeros; what follows is left. -/
def number? (text : List Char) : Option (Nat × List Char) :=
  let digits := text.takeWhile Char.isDigit
  let n := decimalValue digits
  if digits.isEmpty then none
  else if digits.head? = some '0' && 1 < digits.length then none
  else if UInt64.size ≤ n then none
  else some (n, text.dropWhile Char.isDigit)

/-- A character of an identifier. -/
def isIdentifierChar (c : Char) : Bool := c.isAlphanum || c = '-'

/-- Digits only, with a zero in front of others. -/
def hasLeadingZero (id : Identifier) : Bool :=
  id.all Char.isDigit && id.head? = some '0' && 1 < id.length

/-- Reads the identifiers at the front, none of them empty; what follows is left. -/
def identifiers? (zerosAllowed : Bool) (text : List Char) : Option (List Identifier × List Char) :=
  let isPart := fun c => isIdentifierChar c || c = '.'
  let ids := Text.splitDots (text.takeWhile isPart)
  if ids.any List.isEmpty || (!zerosAllowed && ids.any hasLeadingZero) then none
  else some (ids, text.dropWhile isPart)

/-- Reads an optional pre-release label. -/
def pre? : List Char → Option (List Identifier × List Char)
  | '-' :: rest => identifiers? false rest
  | rest => some ([], rest)

/-- Reads an optional build label, in which numbers may have leading zeros. -/
def build? : List Char → Option (List Identifier × List Char)
  | '+' :: rest => identifiers? true rest
  | rest => some ([], rest)

/-- Reads a dot. -/
def dot? : List Char → Option (List Char)
  | '.' :: rest => some rest
  | _ => none

/-- Reads a whole text as a version. -/
def ofString? (text : String) : Option Version := do
  let (major, rest) ← number? text.toList
  let (minor, rest) ← number? (← dot? rest)
  let (patch, rest) ← number? (← dot? rest)
  let (pre, rest) ← pre? rest
  let (build, rest) ← build? rest
  if rest.isEmpty then some ⟨major, minor, patch, pre, build⟩ else none

/-! ### Order of pre-release labels -/

/-- Numbers by value and before words; words by code points. -/
def compareIdentifiers (a b : Identifier) : Ordering :=
  match a.all Char.isDigit, b.all Char.isDigit with
  | true, true => (compare a.length b.length).then (compare (String.ofList a) (String.ofList b))
  | true, false => .lt
  | false, true => .gt
  | false, false => compare (String.ofList a) (String.ofList b)

/-- From the left; a shorter label comes first. -/
def compareLabels : List Identifier → List Identifier → Ordering
  | [], [] => .eq
  | [], _ :: _ => .lt
  | _ :: _, [] => .gt
  | a :: as, b :: bs => (compareIdentifiers a b).then (compareLabels as bs)

/-- The order of pre-release labels, in which no label at all comes last. -/
def comparePre (a b : List Identifier) : Ordering :=
  match a.isEmpty, b.isEmpty with
  | true, true => .eq
  | true, false => .gt
  | false, true => .lt
  | false, false => compareLabels a b

end Version

end ForeignBridge
