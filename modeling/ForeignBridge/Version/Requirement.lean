import ForeignBridge.Version

/-! # Version requirements

A requirement is a conjunction of comparators such as `>=4.10` or `~4.2.1`; no comparator at all accepts every
release and is written `*`. Numbers left out on the right stand for any number.

A pre-release version is accepted only where some comparator names a pre-release of the same three numbers.

Registration asks of a text only whether it is a requirement (`ofString?`) and whether that accepts a version
(`accepts`). The results on registration use nothing else about them, and so hold for any other notion of a requirement
as well. -/

namespace ForeignBridge

namespace Version

/-- How a comparator compares. -/
inductive Relation where
  | exact
  | greater
  | greaterEq
  | less
  | lessEq
  | tilde
  | caret
  | wildcard
deriving DecidableEq, Repr

/-- A relation and the version it compares with, of which numbers on the right may be left out. -/
structure Comparator where
  relation : Relation
  major : Nat
  minor : Option Nat
  patch : Option Nat
  pre : List Identifier
deriving DecidableEq, Repr

/-- All comparators must hold. -/
structure Requirement where
  comparators : List Comparator
deriving DecidableEq, Repr

/-! ### Text -/

/-- The sign of a relation. -/
def Relation.sign : Relation → String
  | .exact => "="
  | .greater => ">"
  | .greaterEq => ">="
  | .less => "<"
  | .lessEq => "<="
  | .tilde => "~"
  | .caret => "^"
  | .wildcard => ""

/-- The text of a comparator. -/
def Comparator.render (c : Comparator) : String :=
  let anyMark := if c.relation = .wildcard then ".*" else ""
  let rest :=
    match c.minor, c.patch with
    | none, _ => anyMark
    | some minor, none => s!".{minor}" ++ anyMark
    | some minor, some patch =>
      s!".{minor}.{patch}" ++ if c.pre.isEmpty then "" else "-" ++ renderIdentifiers c.pre
  c.relation.sign ++ toString c.major ++ rest

/-- The text of a requirement. -/
def Requirement.render (r : Requirement) : String :=
  if r.comparators.isEmpty then "*"
  else ", ".intercalate (r.comparators.map Comparator.render)

/-- Leaves out spaces at the front. -/
def skipSpaces (text : List Char) : List Char := text.dropWhile (· = ' ')

/-- Reads the sign of a relation; a caret where there is none, which the flag tells. -/
def relation : List Char → Relation × Bool × List Char
  | '=' :: rest => (.exact, false, rest)
  | '>' :: '=' :: rest => (.greaterEq, false, rest)
  | '>' :: rest => (.greater, false, rest)
  | '<' :: '=' :: rest => (.lessEq, false, rest)
  | '<' :: rest => (.less, false, rest)
  | '~' :: rest => (.tilde, false, rest)
  | '^' :: rest => (.caret, false, rest)
  | rest => (.caret, true, rest)

/-- Reads one of the three signs for any number. -/
def anyNumber? : List Char → Option (List Char)
  | '*' :: rest => some rest
  | 'x' :: rest => some rest
  | 'X' :: rest => some rest
  | _ => none

/-- What follows a dot, or stands in place of it. -/
inductive Part where
  | absent
  | any
  | number (n : Nat)
deriving DecidableEq, Repr

/-- The number of a part that has one. -/
def Part.value? : Part → Option Nat
  | .number n => some n
  | _ => none

/-- Reads a dot and a number or a sign for any; neither if there is no dot. -/
def part? : List Char → Option (Part × List Char)
  | '.' :: rest =>
    match anyNumber? rest with
    | some rest => some (.any, rest)
    | none => (number? rest).map fun (n, rest) => (.number n, rest)
  | rest => some (.absent, rest)

/-- Reads a comparator and the spaces after it. -/
def comparator? (text : List Char) : Option (Comparator × List Char) := do
  let (sign, implied, rest) := relation text
  let (major, rest) ← number? (skipSpaces rest)
  let (minor, rest) ← part? rest
  let (patch, rest) ← part? rest
  if minor = .any && patch.value?.isSome then none
  let sign := if implied && (minor = .any || patch = .any) then .wildcard else sign
  let (pre, rest) ← if patch.value?.isSome then pre? rest else some ([], rest)
  let (_, rest) ← if patch.value?.isSome then build? rest else some ([], rest)
  some (⟨sign, major, minor.value?, patch.value?, pre⟩, skipSpaces rest)

/-- The largest number of comparators in a requirement. -/
def maxComparators : Nat := 32

/-- Reads comparators separated by commas up to the end of the text, at most as many as given. -/
def comparators? : Nat → List Char → Option (List Comparator)
  | 0, _ => none
  | more + 1, text => do
    let (first, rest) ← comparator? text
    match rest with
    | [] => some [first]
    | ',' :: rest => (comparators? more (skipSpaces rest)).map (first :: ·)
    | _ => none

/-- Reads a whole text as a requirement. -/
def Requirement.ofString? (text : String) : Option Requirement :=
  let text := skipSpaces text.toList
  match anyNumber? text with
  | some rest => if (skipSpaces rest).isEmpty then some ⟨[]⟩ else none
  | none => (comparators? maxComparators text).map Requirement.mk

/-! ### Matching -/

/-- The numbers that are given agree, and so do the pre-release labels. -/
def Comparator.agrees (c : Comparator) (v : Version) : Bool :=
  v.major == c.major && c.minor.all (v.minor == ·) && c.patch.all (v.patch == ·) && v.pre == c.pre

/-- The first number that differs decides by `before`; a number that is left out decides against. -/
def Comparator.orders (c : Comparator) (v : Version) (before : Ordering) : Bool :=
  if v.major ≠ c.major then compare v.major c.major == before
  else
    match c.minor with
    | none => false
    | some minor =>
      if v.minor ≠ minor then compare v.minor minor == before
      else
        match c.patch with
        | none => false
        | some patch =>
          if v.patch ≠ patch then compare v.patch patch == before
          else comparePre v.pre c.pre == before

/-- The major and minor numbers agree, and the rest is not lower. -/
def Comparator.tilde (c : Comparator) (v : Version) : Bool :=
  v.major == c.major && c.minor.all (v.minor == ·) &&
    match c.patch with
    | some patch => if v.patch ≠ patch then v.patch > patch else comparePre v.pre c.pre != .lt
    | none => comparePre v.pre c.pre != .lt

/-- The leftmost number that is not zero agrees, and the rest is not lower. -/
def Comparator.caret (c : Comparator) (v : Version) : Bool :=
  v.major == c.major &&
    match c.minor, c.patch with
    | none, _ => true
    | some minor, none => if c.major > 0 then v.minor ≥ minor else v.minor == minor
    | some minor, some patch =>
      let preFits := comparePre v.pre c.pre != .lt
      if c.major > 0 then
        if v.minor ≠ minor then v.minor > minor
        else if v.patch ≠ patch then v.patch > patch
        else preFits
      else if minor > 0 then
        if v.minor ≠ minor then false
        else if v.patch ≠ patch then v.patch > patch
        else preFits
      else v.minor == minor && v.patch == patch && preFits

/-- The version satisfies one comparator. -/
def Comparator.accepts (c : Comparator) (v : Version) : Bool :=
  match c.relation with
  | .exact | .wildcard => c.agrees v
  | .greater => c.orders v .gt
  | .greaterEq => c.agrees v || c.orders v .gt
  | .less => c.orders v .lt
  | .lessEq => c.agrees v || c.orders v .lt
  | .tilde => c.tilde v
  | .caret => c.caret v

/-- The comparator names a pre-release of the same three numbers. -/
def Comparator.admitsPre (c : Comparator) (v : Version) : Bool :=
  c.major == v.major && c.minor == some v.minor && c.patch == some v.patch && !c.pre.isEmpty

/-- The version satisfies the requirement. -/
def Requirement.accepts (r : Requirement) (v : Version) : Bool :=
  r.comparators.all (·.accepts v) && (v.pre.isEmpty || r.comparators.any (·.admitsPre v))

end Version

end ForeignBridge
