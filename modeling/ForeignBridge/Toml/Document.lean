import ForeignBridge.Toml.Number
import ForeignBridge.Toml.Section

/-! # Reading TOML documents

A document is a list of lines: empty ones, comments, headers and values under keys. A header `[path]` opens a section,
a header `[[path]]` one more of several sections under the same path; the values that follow belong to it.

The open section stands apart from the rest of the document and is put in its place when the next header opens or the
document ends. An implied section that gets its header moves to that place, so the order of the finished tables is the
order in which their headers were closed. -/

namespace ForeignBridge.Toml

/-! ### Values -/

/-- Reads the items of an array and its end, at most as many as given. -/
def items? (value? : Scanner Value) : Nat → Scanner (List Value)
  | 0, _ => none
  | more + 1, text =>
    match skipLines (text.length + 1) text with
    | ']' :: rest => some ([], rest)
    | text =>
      (value? text).bind fun (v, rest) =>
        match skipLines (rest.length + 1) rest with
        | ']' :: rest => some ([v], rest)
        | ',' :: rest => (items? value? more rest).map fun (vs, rest) => (v :: vs, rest)
        | _ => none

/-- Reads a key, the equals sign and a value, with blanks between them. -/
def assignment? (value? : Scanner Value) : Scanner (List String × Value) := fun text => do
  let (path, rest) ← key? text
  let rest ← char? '=' rest
  let (v, rest) ← value? (skipSpace rest)
  some ((path, v), rest)

/-- Adds a value to a section under all parts of a key. -/
def Section.assign (path : List String) (v : Value) (s : Section) : Option Section :=
  match path.getLast? with
  | some key => s.addValue path.dropLast key v
  | none => none

/-- Reads the entries of an inline table and its end, at most as many as given. -/
def entries? (value? : Scanner Value) (s : Section) : Nat → Scanner Section
  | 0, _ => none
  | more + 1, text => do
    let ((path, v), rest) ← assignment? value? text
    let s ← s.assign path v
    match skipSpace rest with
    | ',' :: rest => entries? value? s more rest
    | '}' :: rest => some (s, rest)
    | _ => none

/-- Reads an inline table after its opening brace. -/
def inlineTable? (value? : Scanner Value) : Scanner Value := fun text =>
  match skipSpace text with
  | '}' :: rest => some (.table [], rest)
  | _ => (entries? value? Section.blank (text.length + 1) text).map fun (s, rest) => (.table s.finish, rest)

/-- Reads a value in which arrays and inline tables nest at most `depth` deep. -/
def valueWithin? : Nat → Scanner Value
  | _, 't' :: 'r' :: 'u' :: 'e' :: rest => some (.boolean true, rest)
  | _, 'f' :: 'a' :: 'l' :: 's' :: 'e' :: rest => some (.boolean false, rest)
  | 0, '[' :: _ => none
  | 0, '{' :: _ => none
  | depth + 1, '[' :: rest =>
    (items? (valueWithin? depth) (rest.length + 1) rest).map fun (vs, rest) => (.array vs, rest)
  | depth + 1, '{' :: rest => inlineTable? (valueWithin? depth) rest
  | _, text =>
    match string? text with
    | some (s, rest) => some (.text s, rest)
    | none => number? text

/-- Reads a value. -/
def value? : Scanner Value := valueWithin? (nestingLimit - 1)

/-! ### Sections -/

/-- The document so far and the open section with its path, which is empty before the first header. -/
structure Draft where
  root : Section
  current : Section
  path : List String
  /-- The open section is one of several under its path. -/
  isRepeated : Bool

namespace Draft

/-- Before the first line. -/
def start : Draft := ⟨.blank, .blank, [], false⟩

/-- Puts the open section in its place. -/
def close (d : Draft) : Option Section :=
  match d.path.getLast? with
  | none => some d.current
  | some key =>
    d.root.descend false (fun parent =>
      match d.isRepeated, parent.get? key with
      | true, none => some (parent.set key (.repeated [d.current.entries]))
      | true, some (.repeated sections) => some (parent.set key (.repeated (sections ++ [d.current.entries])))
      | false, none => some (parent.set key d.current.toNode)
      | false, some (.nested true _ _) => some (parent.set key d.current.toNode)
      | _, _ => none) d.path.dropLast

/-- The entries of the implied section under a path, or none if there is no section; fails where anything else stands. -/
def implied? (root : Section) (path : List String) (key : String) : Option (List (String × Node)) :=
  match path with
  | [] =>
    match root.get? key with
    | none => some []
    | some (.nested true false entries) => some entries
    | some _ => none
  | step :: path =>
    match root.get? step with
    | none => some []
    | some (.value _) => none
    | some (.nested implied dotted entries) => implied? ⟨implied, dotted, entries⟩ path key
    | some (.repeated sections) =>
      match sections.getLast? with
      | some entries => implied? ⟨false, false, entries⟩ path key
      | none => none

/-- Opens a section under a path. What was implied there before is taken over. -/
def openSection (path : List String) (d : Draft) : Option Draft := do
  let root ← d.close
  let key ← path.getLast?
  let entries ← implied? root path.dropLast key
  let root ← root.descend false (fun parent => some (parent.remove key)) path.dropLast
  some ⟨root, ⟨false, false, entries⟩, path, false⟩

/-- Opens one more section under a path that may have several. -/
def openRepeated (path : List String) (d : Draft) : Option Draft := do
  let root ← d.close
  let key ← path.getLast?
  let root ← root.descend false (fun parent =>
    match parent.get? key with
    | none => some (parent.set key (.repeated []))
    | some (.repeated _) => some parent
    | some _ => none) path.dropLast
  some ⟨root, .blank, path, true⟩

/-- Adds a value to the open section. -/
def assign (path : List String) (v : Value) (d : Draft) : Option Draft :=
  (d.current.assign path v).map fun current => { d with current }

end Draft

/-! ### Lines -/

/-- Reads a header and the rest of its line. -/
def header? (d : Draft) : Scanner Draft := fun text =>
  match text with
  | '[' :: '[' :: rest => do
    let (path, rest) ← key? rest
    let rest ← restOfLine? (← char? ']' (← char? ']' rest))
    some (← d.openRepeated path, rest)
  | '[' :: rest => do
    let (path, rest) ← key? rest
    let rest ← restOfLine? (← char? ']' rest)
    some (← d.openSection path, rest)
  | _ => none

/-- Reads a value under a key and the rest of its line. -/
def assignmentLine? (d : Draft) : Scanner Draft := fun text => do
  let ((path, v), rest) ← assignment? value? text
  let rest ← restOfLine? rest
  some (← d.assign path v, rest)

/-- Reads lines up to the end of the text, at most as many as given. -/
def lines? : Nat → Draft → List Char → Option Draft
  | 0, _, _ => none
  | more + 1, d, text =>
    match skipSpace text with
    | [] => some d
    | '[' :: rest => (header? d ('[' :: rest)).bind fun (d, rest) => lines? more d rest
    | text =>
      match restOfLine? text with
      | some rest => lines? more d rest
      | none => (assignmentLine? d text).bind fun (d, rest) => lines? more d rest

/-- Reads a whole document, with or without a byte order mark in front. -/
def document? (text : String) : Option (List (String × Value)) :=
  let text :=
    match text.toList with
    | '\ufeff' :: rest => rest
    | text => text
  ((lines? (text.length + 1) .start text).bind Draft.close).map Section.finish

end ForeignBridge.Toml
