import ForeignBridge.Function.Stock
import ForeignBridge.Session.Input
import ForeignBridge.Session.State

/-! # Resolving inputs

The inputs of a step name variables and handles. Resolving an input looks the variables up and makes the cells that the
input asks for, of which the step is a holder until it ends. The handles of a value are looked up before any of its
cells is made. -/

namespace ForeignBridge

namespace Session

namespace Action

/-! ### Handles and cells -/

/-- What a variable holds. -/
def lookup (name : String) : Action Binding := do
  match (← get).bindings.get? name with
  | some b => pure b
  | none => throw (.misused name)

/-- The handle of an input. -/
def handle : HandleInput → Action Handle
  | .number h => pure h
  | .named name => do
    match (← lookup name).handle? (← get).store with
    | some h => pure h
    | none => throw (.misused name)

/-- The cell that a variable holds, be it in a foreign object or function. -/
def cellOf (name : String) : Action CellId := do
  match ← lookup name with
  | .cell c => pure c
  | .value v =>
    match v.reference? with
    | some c => pure c
    | none => throw (.misused name)
  | _ => throw (.misused name)

/-! ### Values and data -/

/-- Where a reference comes from: a new cell, or one that is there. -/
inductive Origin where
  | fresh (h : Handle)
  | shared (c : CellId)

/-- The value that a reference stands for in place of a foreign object. -/
def origin : ReferenceInput → Action (Value Origin)
  | .fresh h => do return .foreign (.fresh (← handle h))
  | .splice name => do
    match ← lookup name with
    | .handle h => return .foreign (.fresh h)
    | .module m => return .foreign (.fresh m.handle)
    | .cell c => return .foreign (.shared c)
    | .value v => return v.map .shared
    | .answer _ => throw (.misused name)

mutual

/-- Replaces the references of a value by their origins. -/
def resolve : ValueInput → Action (Value Origin)
  | .nil => pure .nil
  | .bool b => pure (.bool b)
  | .int i => pure (.int i)
  | .float x => pure (.float x)
  | .str s => pure (.str s)
  | .symbol s => pure (.symbol s)
  | .list items => do return .list (← resolveItems items)
  | .record fields => do return .record (← resolveFields fields)
  | .foreign r => origin r
  | .function (.fresh h) auto => do return .function (.fresh (← handle h)) auto
  | .function (.splice name) _ => throw (.misused name)

/-- Replaces the references of a list. -/
def resolveItems : List ValueInput → Action (List (Value Origin))
  | [] => pure []
  | v :: rest => do
    let v ← resolve v
    return v :: (← resolveItems rest)

/-- Replaces the references of a record. -/
def resolveFields : List (String × ValueInput) → Action (List (String × Value Origin))
  | [] => pure []
  | (key, v) :: rest => do
    let v ← resolve v
    return (key, v) :: (← resolveFields rest)

end

/-- Makes or shares the cell of a reference. -/
def obtain (o : Origin) (s : Store) : CellId × Store :=
  match o with
  | .fresh h => s.hold h
  | .shared c => (c, s.retain c)

/-- The value of an input. The step holds its cells. -/
def value (v : ValueInput) : Action (Value CellId) := do
  let v ← onStore ((← resolve v).mapState obtain)
  keep v.references
  return v

/-- The data of an input. The step holds its cells. -/
def datum : DatumInput → Action (Datum CellId)
  | .plain .nothing => pure .nothing
  | .plain (.bool b) => pure (.bool b)
  | .plain (.int i) => pure (.int i)
  | .plain (.float x) => pure (.float x)
  | .plain (.str s) => pure (.str s)
  | .plain (.symbol s) => pure (.symbol s)
  | .plain (.array items) => pure (.array items)
  | .plain (.dict pairs) => pure (.dict pairs)
  | .plain (.host v) => do return .host (← value v)
  | .plain .unknown => pure .unknown
  | .array items => do return .array (← items.mapM handle)
  | .dict pairs => do return .dict (← pairs.mapM fun (k, v) => do return (← handle k, ← handle v))

/-- The type expression of a text. -/
def typeExpr (text : String) : Action TypeExpr := lift .typeText (TypeExpr.ofString text)

/-! ### Functions -/

/-- Data with the positions of its cells, and the cells. -/
def capture (data : Datum CellId) : Datum Nat × List CellId :=
  let cells := data.references
  (data.map cells.idxOf, cells)

/-- The behaviour of a function and the cells it captures. -/
def function : FunctionInput → Action (Stock.Behaviour × List CellId)
  | .identity => pure (Stock.identity, [])
  | .failing message => pure (Stock.failing message, [])
  | .constant h => do return (Stock.constant (← handle h), [])
  | .copying data => do
    let (data, cells) := capture (← datum data)
    return (Stock.copying data, cells)
  | .sum => pure (Stock.sum, [])
  | .stringify => pure (Stock.stringify, [])
  | .rooted => pure (Stock.rooted, [])
  | .count => pure (Stock.count, [])
  | .pack => pure (Stock.pack, [])
  | .dict => pure (Stock.dict, [])
  | .nth index => pure (Stock.nth index, [])
  | .collecting => pure (Stock.collecting, [])
  | .raiseThen data h => do
    let (data, cells) := capture (← datum data)
    return (Stock.raiseThen data (← handle h), cells)
  | .calling => pure (Stock.calling, [])
  | .field name => pure (Stock.field name, [])
  | .typing => pure (Stock.typing, [])
  | .making type fields => do return (Stock.making (← handle type) fields, [])
  | .custom captured body => do return (body, (← captured.mapM lookup).flatMap Binding.cells)

end Action

end Session

end ForeignBridge
