import ForeignBridge.Toml.Value

/-! # Assembling TOML tables

Tables come into being in four ways: by a header, as a step on the way of a header, by a dotted key, and as an inline
value. Only some of them may be added to later, so a section notes how it came into being:

* `implied` sections were only passed on the way and may still get a header;
* `dotted` sections were made by dotted keys and may only be added to by dotted keys.

`Section.descend` follows a path and makes the sections that are missing on the way. -/

namespace ForeignBridge.Toml

/-- An entry of a section. -/
inductive Node where
  | value (v : Value)
  /-- A section within a section. -/
  | nested (implied : Bool) (dotted : Bool) (entries : List (String × Node))
  /-- The entries of the sections of one repeated header, the first first. -/
  | repeated (sections : List (List (String × Node)))
deriving Inhabited

/-- A table while it is assembled. -/
structure Section where
  implied : Bool
  dotted : Bool
  entries : List (String × Node)
deriving Inhabited

namespace Section

/-- A section with a header of its own, still empty. -/
def blank : Section := ⟨false, false, []⟩

/-- The entry under a key. -/
def get? (key : String) (s : Section) : Option Node := s.entries.lookup key

/-- Replaces the entry under a key where it stands, or adds it at the end. -/
def setEntry (key : String) (n : Node) : List (String × Node) → List (String × Node)
  | [] => [(key, n)]
  | (k, m) :: rest => if k = key then (key, n) :: rest else (k, m) :: setEntry key n rest

/-- Replaces or adds the entry under a key. -/
def set (key : String) (n : Node) (s : Section) : Section := { s with entries := setEntry key n s.entries }

/-- Removes the entry under a key. -/
def remove (key : String) (s : Section) : Section := { s with entries := s.entries.filter (·.1 != key) }

/-- The entry that a section becomes. -/
def toNode (s : Section) : Node := .nested s.implied s.dotted s.entries

/-- Applies `f` to the last member of a list. -/
def updateLast {α : Type} (f : α → Option α) : List α → Option (List α)
  | [] => none
  | [x] => (f x).map fun y => [y]
  | x :: rest => (updateLast f rest).map (x :: ·)

/-- Applies `f` to the section at the end of a path. On the way of a dotted key (`byKey`) a section with a header of its
own is not entered, and new sections are dotted. Of repeated sections the last is entered. -/
def descend (byKey : Bool) (f : Section → Option Section) : List String → Section → Option Section
  | [], s => f s
  | key :: path, s =>
    match s.get? key with
    | none => (descend byKey f path ⟨true, byKey, []⟩).map fun t => s.set key t.toNode
    | some (.value _) => none
    | some (.nested implied dotted entries) =>
      if byKey && !implied then none
      else (descend byKey f path ⟨implied, dotted, entries⟩).map fun t => s.set key t.toNode
    | some (.repeated sections) =>
      (updateLast (fun entries => (descend byKey f path ⟨false, false, entries⟩).map Section.entries) sections).map
        fun sections => s.set key (.repeated sections)

/-- Adds a value under a key of one or more parts. Dotted keys reach only sections made by dotted keys, and no key is
given twice. -/
def addValue (path : List String) (key : String) (v : Value) (s : Section) : Option Section :=
  s.descend true (fun t =>
    if t.dotted == path.isEmpty then none
    else
      match t.get? key with
      | some _ => none
      | none => some (t.set key (.value v))) path

mutual

/-- The finished value of an entry. -/
def finishNode : Node → Value
  | .value v => v
  | .nested _ _ entries => .table (finishEntries entries)
  | .repeated sections => .array (finishSections sections)

/-- The finished values of entries. -/
def finishEntries : List (String × Node) → List (String × Value)
  | [] => []
  | (key, n) :: rest => (key, finishNode n) :: finishEntries rest

/-- The finished values of repeated sections. -/
def finishSections : List (List (String × Node)) → List Value
  | [] => []
  | entries :: rest => .table (finishEntries entries) :: finishSections rest

end

/-- The finished entries of a section. -/
def finish (s : Section) : List (String × Value) := finishEntries s.entries

end Section

end ForeignBridge.Toml
