import ForeignBridge.Bridge.Error
import ForeignBridge.Conversion
import ForeignBridge.Store

/-! # Converting to the foreign store

A converted value comes back as a cell, of which the caller is a holder. While a container is being built, a cell keeps
each of its parts; these cells are released as soon as the container exists, or as soon as a later part fails. So a
conversion leaves one root, or none.

Foreign objects and functions stand for themselves. A record becomes pairs whose keys are symbols. Slots are allocated
by `alloc`, which is `Store.construct` in all use; the parameter is there to say that a runtime may do other work before
it allocates. -/

namespace ForeignBridge

/-- Allocates a slot for data. -/
abbrev Allocator := Datum CellId → Store → Handle × Store

namespace ConversionPolicy

/-- A new slot for data, held by a new cell. -/
def place (alloc : Allocator) (data : Datum CellId) (s : Store) : CellId × Store :=
  let (h, s) := alloc data s
  s.hold h

/-- A new slot for a container, held by a new cell; the cells of its parts are released. -/
def placeContainer (alloc : Allocator) (data : Datum CellId) (parts : List CellId) (s : Store) : CellId × Store :=
  let (c, s) := place alloc data s
  (c, s.releaseAll parts)

mutual

/-- Converts a value that stands `depth` containers deep. -/
def toForeignAt (p : ConversionPolicy) (alloc : Allocator) (depth : Nat) (v : Value CellId) (s : Store) :
    Except BridgeError CellId × Store :=
  if p.maxDepth < depth then (.error (.tooDeep p.maxDepth), s)
  else
    let leaf := fun (k : NativeKind) (data : Datum CellId) =>
      let (c, s) := place alloc (if p.allows k then data else .host v) s
      ((.ok c, s) : Except BridgeError CellId × Store)
    match v with
    | .foreign c => (.ok c, s.retain c)
    | .function c _ => (.ok c, s.retain c)
    | .nil => leaf .nil .nothing
    | .bool b => leaf .bool (.bool b)
    | .int i => leaf .int (.int i)
    | .float x => leaf .float (.float x)
    | .str text => leaf .string (.str text)
    | .symbol name => leaf .symbol (.symbol name)
    | .list items =>
      if p.allows .list then
        match toForeignItems p alloc (depth + 1) items s with
        | (.error e, s) => (.error e, s)
        | (.ok parts, s) =>
          let (c, s) := placeContainer alloc (.array (parts.map s.read)) parts s
          (.ok c, s)
      else
        let (c, s) := place alloc (.host v) s
        (.ok c, s)
    | .record fields =>
      if p.allows .record then
        match toForeignFields p alloc (depth + 1) fields s with
        | (.error e, s) => (.error e, s)
        | (.ok parts, s) =>
          let (c, s) := placeContainer alloc (.dict (Datum.pairUp (parts.map s.read))) parts s
          (.ok c, s)
      else
        let (c, s) := place alloc (.host v) s
        (.ok c, s)

/-- Converts the items of a list from left to right. -/
def toForeignItems (p : ConversionPolicy) (alloc : Allocator) (depth : Nat) (items : List (Value CellId)) (s : Store) :
    Except BridgeError (List CellId) × Store :=
  match items with
  | [] => (.ok [], s)
  | v :: rest =>
    match toForeignAt p alloc depth v s with
    | (.error e, s) => (.error e, s)
    | (.ok c, s) =>
      match toForeignItems p alloc depth rest s with
      | (.error e, s) => (.error e, s.release c)
      | (.ok cs, s) => (.ok (c :: cs), s)

/-- Converts the fields of a record, each key before its value; keys and values alternate in the result. -/
def toForeignFields (p : ConversionPolicy) (alloc : Allocator) (depth : Nat) (fields : List (String × Value CellId))
    (s : Store) : Except BridgeError (List CellId) × Store :=
  match fields with
  | [] => (.ok [], s)
  | (key, v) :: rest =>
    let (k, s) := place alloc (.symbol key) s
    match toForeignAt p alloc depth v s with
    | (.error e, s) => (.error e, s.release k)
    | (.ok c, s) =>
      match toForeignFields p alloc depth rest s with
      | (.error e, s) => (.error e, (s.release c).release k)
      | (.ok cs, s) => (.ok (k :: c :: cs), s)

end

/-- Converts a host value into a foreign value that the returned cell holds. -/
def toForeign (p : ConversionPolicy) (v : Value CellId) (s : Store) : Except BridgeError CellId × Store :=
  p.toForeignAt Store.construct 0 v s

end ConversionPolicy

end ForeignBridge
