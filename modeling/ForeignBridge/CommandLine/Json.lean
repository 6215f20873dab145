/-! # Indented JSON

The output format for other programs: members in the given order, two blanks of indentation for each level, and empty
arrays on one line. Only control characters, quotes and backslashes are escaped. -/

namespace ForeignBridge.CommandLine

/-- A JSON value as far as the commands need them. -/
inductive Json where
  | null
  | text (s : String)
  | array (items : List Json)
  | object (members : List (String × Json))

namespace Json

/-- A hexadecimal code of four digits. -/
def code (n : Nat) : List Char :=
  let digits := Nat.toDigits 16 n
  List.replicate (4 - digits.length) '0' ++ digits

/-- The written form of a character inside quotes. -/
def escape (c : Char) : List Char :=
  if c = '"' then ['\\', '"']
  else if c = '\\' then ['\\', '\\']
  else if c = '\n' then ['\\', 'n']
  else if c = '\r' then ['\\', 'r']
  else if c = '\t' then ['\\', 't']
  else if c = '\x08' then ['\\', 'b']
  else if c = '\x0c' then ['\\', 'f']
  else if c.toNat < 0x20 then ['\\', 'u'] ++ code c.toNat
  else [c]

/-- A text between quotes. -/
def quoted (s : String) : String := String.ofList ('"' :: s.toList.flatMap escape ++ ['"'])

/-- A line break and the indentation of a level. -/
def newLine (level : Nat) : String := "\n" ++ String.ofList (List.replicate (2 * level) ' ')

/-- Parts between brackets, each on a line of its own. -/
def bracket (opening closing : String) (level : Nat) (parts : List String) : String :=
  if parts.isEmpty then opening ++ closing
  else opening ++ newLine (level + 1) ++ ("," ++ newLine (level + 1)).intercalate parts ++ newLine level ++ closing

mutual

/-- The written form of a value at a level of indentation. -/
def renderAt (level : Nat) : Json → String
  | .null => "null"
  | .text s => quoted s
  | .array items => bracket "[" "]" level (renderItems (level + 1) items)
  | .object members => bracket "\x7b" "\x7d" level (renderMembers (level + 1) members)

/-- The written forms of the items of an array. -/
def renderItems (level : Nat) : List Json → List String
  | [] => []
  | v :: rest => renderAt level v :: renderItems level rest

/-- The written forms of the members of an object. -/
def renderMembers (level : Nat) : List (String × Json) → List String
  | [] => []
  | (name, v) :: rest => (quoted name ++ ": " ++ renderAt level v) :: renderMembers level rest

end

/-- The written form of a value. -/
def render (v : Json) : String := renderAt 0 v

end Json

end ForeignBridge.CommandLine
