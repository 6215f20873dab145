/-! # Scanning TOML text

Blanks, line ends, comments, strings and keys. A scanner takes the characters that are left and gives what it has read
together with the characters after it, or nothing if the text does not fit. -/

namespace ForeignBridge.Toml

/-- Reads something at the front of a text. -/
abbrev Scanner (α : Type) := List Char → Option (α × List Char)

/-! ### Blanks, line ends and comments -/

/-- A space or a tab. -/
def isSpace (c : Char) : Bool := c = ' ' || c = '\t'

/-- Leaves out spaces and tabs. -/
def skipSpace (text : List Char) : List Char := text.dropWhile isSpace

/-- Reads a line end: a line feed, with or without a carriage return before it. -/
def lineEnd? : List Char → Option (List Char)
  | '\n' :: rest => some rest
  | '\r' :: '\n' :: rest => some rest
  | _ => none

/-- A character that may stand anywhere on a line: a tab, or one that is no control character. -/
def isPlain (c : Char) : Bool := c = '\t' || (0x20 ≤ c.toNat && c.toNat ≠ 0x7f)

/-- Leaves out a comment, if there is one. -/
def skipComment : List Char → List Char
  | '#' :: rest => rest.dropWhile isPlain
  | text => text

/-- Reads the end of a line: blanks, a comment, and a line end or the end of the text. -/
def restOfLine? (text : List Char) : Option (List Char) :=
  match skipComment (skipSpace text) with
  | [] => some []
  | text => lineEnd? text

/-- Leaves out blanks, line ends and comments that end with their line, at most as many as given. -/
def skipLines : Nat → List Char → List Char
  | 0, text => text
  | more + 1, text =>
    match skipSpace text with
    | '#' :: rest =>
      match lineEnd? (rest.dropWhile isPlain) with
      | some rest => skipLines more rest
      | none => '#' :: rest
    | text =>
      match lineEnd? text with
      | some rest => skipLines more rest
      | none => text

/-! ### Strings -/

/-- The value of a hexadecimal digit. -/
def hexValue? (c : Char) : Option Nat :=
  if c.isDigit then some (c.toNat - '0'.toNat)
  else if 'a' ≤ c && c ≤ 'f' then some (c.toNat - 'a'.toNat + 10)
  else if 'A' ≤ c && c ≤ 'F' then some (c.toNat - 'A'.toNat + 10)
  else none

/-- The value of hexadecimal digits. -/
def hexNumber? (digits : List Char) : Option Nat :=
  digits.foldl (fun n c => n.bind fun n => (hexValue? c).map (16 * n + ·)) (some 0)

/-- Reads a character by the given number of hexadecimal digits of its code. -/
def coded? (count : Nat) : Scanner Char := fun text =>
  let digits := text.take count
  if digits.length < count then none
  else
    match hexNumber? digits with
    | none => none
    | some n => if n.isValidChar then some (Char.ofNat n, text.drop count) else none

/-- Reads what follows a backslash. -/
def escaped? : Scanner Char
  | 'b' :: rest => some ('\x08', rest)
  | 't' :: rest => some ('\t', rest)
  | 'n' :: rest => some ('\n', rest)
  | 'f' :: rest => some ('\x0c', rest)
  | 'r' :: rest => some ('\r', rest)
  | '"' :: rest => some ('"', rest)
  | '\\' :: rest => some ('\\', rest)
  | 'u' :: rest => coded? 4 rest
  | 'U' :: rest => coded? 8 rest
  | _ => none

/-- Puts a character in front of what a scanner read. -/
def prepend (chars : List Char) : Option (List Char × List Char) → Option (List Char × List Char) :=
  Option.map fun (read, rest) => (chars ++ read, rest)

/-- Reads the rest of a string between single double quotes, in at most as many steps as given. -/
def basicBody : Nat → Scanner (List Char)
  | 0, _ => none
  | more + 1, text =>
    match text with
    | '"' :: rest => some ([], rest)
    | '\\' :: rest => (escaped? rest).bind fun (c, rest) => prepend [c] (basicBody more rest)
    | c :: rest => if isPlain c then prepend [c] (basicBody more rest) else none
    | [] => none

/-- Reads the rest of a string between apostrophes. -/
def literalBody : Scanner (List Char)
  | '\x27' :: rest => some ([], rest)
  | c :: rest => if isPlain c then prepend [c] (literalBody rest) else none
  | [] => none

/-- Leaves out blanks and line ends. -/
def skipBreaks : List Char → List Char
  | '\r' :: '\n' :: rest => skipBreaks rest
  | c :: rest => if isSpace c || c = '\n' then skipBreaks rest else c :: rest
  | [] => []

/-- The rest of a text after a backslash that ends a line: all blanks and line ends are left out. -/
def continued? (text : List Char) : Option (List Char) := (lineEnd? (skipSpace text)).map skipBreaks

/-- Reads a run of quotes in a string of several lines: three end it, and up to two before them belong to it. The flag
tells whether the string has ended. -/
def quoteRun (quote : Char) (text : List Char) : List Char × Bool × List Char :=
  let run := (text.takeWhile (· = quote)).take 5
  if run.length < 3 then (run, false, text.drop run.length)
  else (run.drop 3, true, text.drop run.length)

/-- Reads the rest of a string of several lines, in at most as many steps as given; backslashes escape in strings
between double quotes. -/
def linesBody (quote : Char) (escapes : Bool) : Nat → Scanner (List Char)
  | 0, _ => none
  | more + 1, text =>
    match text with
    | [] => none
    | c :: rest =>
      if c = quote then
        match quoteRun quote text with
        | (run, true, rest) => some (run, rest)
        | (run, false, rest) => prepend run (linesBody quote escapes more rest)
      else if escapes && c = '\\' then
        match continued? rest with
        | some rest => linesBody quote escapes more rest
        | none => (escaped? rest).bind fun (c, rest) => prepend [c] (linesBody quote escapes more rest)
      else
        match lineEnd? text with
        | some rest => prepend ['\n'] (linesBody quote escapes more rest)
        | none => if isPlain c then prepend [c] (linesBody quote escapes more rest) else none

/-- Leaves out a line end right after the opening quotes. -/
def skipFirstLineEnd (text : List Char) : List Char := (lineEnd? text).getD text

/-- Reads a string of one of the four kinds. -/
def string? : Scanner String := fun text =>
  let found :=
    match text with
    | '"' :: '"' :: '"' :: rest => linesBody '"' true (text.length + 1) (skipFirstLineEnd rest)
    | '"' :: rest => basicBody (text.length + 1) rest
    | '\x27' :: '\x27' :: '\x27' :: rest => linesBody '\x27' false (text.length + 1) (skipFirstLineEnd rest)
    | '\x27' :: rest => literalBody rest
    | _ => none
  found.map fun (chars, rest) => (String.ofList chars, rest)

/-! ### Keys -/

/-- A character of a key without quotes. -/
def isBareKeyChar (c : Char) : Bool := c.isAlphanum || c = '_' || c = '-'

/-- Reads one part of a key. -/
def keyPart? : Scanner String := fun text =>
  match text with
  | '"' :: rest => (basicBody (text.length + 1) rest).map fun (chars, rest) => (String.ofList chars, rest)
  | '\x27' :: rest => (literalBody rest).map fun (chars, rest) => (String.ofList chars, rest)
  | _ =>
    let bare := text.takeWhile isBareKeyChar
    if bare.isEmpty then none else some (String.ofList bare, text.dropWhile isBareKeyChar)

/-- Reads parts separated by dots, with blanks around each, at most as many as given. -/
def keyParts? : Nat → Scanner (List String)
  | 0, _ => none
  | more + 1, text =>
    (keyPart? (skipSpace text)).bind fun (part, rest) =>
      match skipSpace rest with
      | '.' :: rest => (keyParts? more rest).map fun (parts, rest) => (part :: parts, rest)
      | rest => some ([part], rest)

/-- The nesting of arrays and inline tables, and the number of parts of a key, stay below this. -/
def nestingLimit : Nat := 80

/-- Reads a key of one or more parts. -/
def key? : Scanner (List String) := keyParts? (nestingLimit - 1)

end ForeignBridge.Toml
