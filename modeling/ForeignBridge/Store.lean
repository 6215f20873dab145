import ForeignBridge.Assoc
import ForeignBridge.Program
import ForeignBridge.Version

/-! # The foreign store

The foreign runtime keeps its values in numbered slots. The slot of handle `n` stands at position `n - 1`. Handles are
given out by a counter, which only goes up, so none is given out twice; a slot that was reclaimed stays empty. Two
tables lead from names to type families, and from families and parameters to applied types.

The host refers to slots through cells. A cell is bound at most once and counts its holders; while it is held and
bound, it holds one root on its slot. Cells belong to the same store because boxed host values, which live in slots,
hold cells in turn.

The main namespace is the first slot of every store.

The process that a store belongs to may come to nothing: a description that goes in a circle never ends, and calls may
nest deeper than the process has stack. The store is then halted. It stands for no state any more, whatever is done to
it. -/

namespace ForeignBridge

/-- The number of a cell. -/
structure CellId where
  index : Nat
deriving DecidableEq, Repr, Hashable, Inhabited

/-- A host reference to a slot, shared by its holders. -/
structure Cell where
  /-- The handle, once the cell is bound. -/
  binding : Option Handle
  holders : Nat
deriving DecidableEq, Repr

/-- What a slot holds. -/
inductive Object where
  /-- Plain data, or a boxed host value. -/
  | value (data : Datum CellId)
  /-- A namespace with its members. -/
  | module (name : String) (members : Keyed Handle)
  /-- A function with the cells it captured. -/
  | function (name : String) (captured : List CellId) (body : List Handle → Program)
  /-- A type family under its foreign name. -/
  | family (name : String)
  /-- A family applied to parameters. -/
  | type (head : Handle) (params : List Handle)
  /-- An object of a type. -/
  | structured (head : Handle) (fields : Keyed Handle)

/-- An object and the number of roots that keep it. -/
structure Slot where
  object : Object
  roots : Nat

/-- A crossing between host and foreign runtime, as the call log shows it. -/
inductive Event where
  | pendingFault
  | clearFault
  | describe
  | readField
  | call
  | inspect
  | applyFamily
deriving DecidableEq, Repr

/-- The name of an event in the call log. -/
def Event.name : Event → String
  | .pendingFault => "pending_fault"
  | .clearFault => "clear_fault"
  | .describe => "describe"
  | .readField => "get_field"
  | .call => "call"
  | .inspect => "inspect"
  | .applyFamily => "apply_type"

/-- The state of the foreign runtime and of the cells that refer to it. -/
structure Store where
  slots : Array (Option Slot)
  /-- The number of the handle that was given out last. -/
  lastId : Nat
  cells : Array (Option Cell)
  /-- The exception of the pending fault. -/
  fault : Option Handle
  /-- The type families under their foreign names. -/
  families : Keyed Handle
  /-- The applied types under their families and parameters. -/
  applied : Assoc (Handle × List Handle) Handle
  /-- The events since recording began, if it has. -/
  log : Option (Array Event)
  /-- The version of the foreign library. -/
  version : Version
  /-- How deep calls may nest before the process has no stack left. -/
  stack : Nat
  /-- A call or a description did not end. -/
  halted : Bool
  /-- Only handles that were given out have slots. -/
  bounded : slots.size ≤ lastId

namespace Object

/-- The slots that an object refers to. -/
def handles : Object → List Handle
  | .value data => data.handles
  | .module _ members => members.map Prod.snd
  | .function _ _ _ => []
  | .family _ => []
  | .type head params => head :: params
  | .structured head fields => head :: fields.map Prod.snd

/-- The cells that an object holds, as often as it holds them. -/
def cells : Object → List CellId
  | .value data => data.references
  | .function _ captured _ => captured
  | _ => []

end Object

namespace Store

/-! ### Slots -/

/-- The handle of the main namespace. -/
def mainModule : Handle := ⟨1⟩

/-- A store with nothing but an empty main namespace, of a process in which calls may nest `stack` levels deep. -/
def ofVersion (version : Version) (stack : Nat := 10000) : Store :=
  { slots := #[some ⟨.module "Main" [], 0⟩]
    lastId := 1
    cells := #[]
    fault := none
    families := []
    applied := []
    log := none
    version
    stack
    halted := false
    bounded := Nat.le_refl 1 }

/-- The process comes to nothing. -/
def halt (s : Store) : Store := { s with halted := true }

/-- The slot of a handle, unless it was never allocated or is reclaimed. -/
def slot? (s : Store) (h : Handle) : Option Slot :=
  if h.isNull then none else (s.slots[h.raw - 1]?).join

/-- The object of a live handle. -/
def object? (s : Store) (h : Handle) : Option Object := (s.slot? h).map Slot.object

/-- The handle names a live slot. -/
def isLive (s : Store) (h : Handle) : Bool := (s.slot? h).isSome

/-- The handle that the next allocation will give out. -/
def nextHandle (s : Store) : Handle := ⟨s.lastId + 1⟩

/-- Applies `f` to the slot of a live handle. -/
def updateSlot (s : Store) (h : Handle) (f : Slot → Slot) : Store :=
  if h.isNull then s
  else { s with slots := s.slots.modify (h.raw - 1) (Option.map f), bounded := by simpa using s.bounded }

/-- The handles of the live slots, ascending, with their slots. -/
def liveSlots (s : Store) : List (Handle × Slot) :=
  s.slots.toList.zipIdx.filterMap fun (slot, i) => slot.map fun x => (⟨i + 1⟩, x)

/-! ### Roots -/

/-- The number of roots on a slot; none where there is no slot. -/
def rootCount (s : Store) (h : Handle) : Nat := ((s.slot? h).map Slot.roots).getD 0

/-- Takes a root; without effect where there is no slot. -/
def root (s : Store) (h : Handle) : Store :=
  s.updateSlot h fun slot => { slot with roots := slot.roots + 1 }

/-- Gives back a root; without effect where there is none. -/
def unroot (s : Store) (h : Handle) : Store :=
  s.updateSlot h fun slot => { slot with roots := slot.roots - 1 }

/-! ### The call log -/

/-- Notes an event, if recording has begun. -/
def note (e : Event) (s : Store) : Store := { s with log := s.log.map (·.push e) }

/-- Begins recording anew. -/
def recordCalls (s : Store) : Store := { s with log := some #[] }

/-- The events since recording began. -/
def callLog (s : Store) : List Event := (s.log.getD #[]).toList

/-! ### Cells -/

/-- The cell of a number, while it is held. -/
def cell? (s : Store) (c : CellId) : Option Cell := (s.cells[c.index]?).join

/-- The handle that a cell is bound to; null for a cell that is not bound. -/
def read (s : Store) (c : CellId) : Handle :=
  ((s.cell? c).bind Cell.binding).getD Handle.null

/-- The cell is bound, be it to null. -/
def isBound (s : Store) (c : CellId) : Bool := ((s.cell? c).bind Cell.binding).isSome

/-- Applies `f` to a cell. -/
def updateCell (s : Store) (c : CellId) (f : Cell → Cell) : Store :=
  { s with cells := s.cells.modify c.index (Option.map f) }

/-- A new cell with one holder, not bound yet. -/
def newCell (s : Store) : CellId × Store :=
  (⟨s.cells.size⟩, { s with cells := s.cells.push (some ⟨none, 1⟩) })

/-- A new cell with one holder, bound to `h`, which gets a root unless it is null. -/
def hold (h : Handle) (s : Store) : CellId × Store :=
  let s := if h.isNull then s else s.root h
  (⟨s.cells.size⟩, { s with cells := s.cells.push (some ⟨some h, 1⟩) })

/-- Binds a cell that is not bound; the handle that it is bound to already is the error. -/
def bind (c : CellId) (h : Handle) (s : Store) : Except Handle Store :=
  match (s.cell? c).bind Cell.binding with
  | some existing => .error existing
  | none =>
    let s := if h.isNull then s else s.root h
    .ok (s.updateCell c fun cell => { cell with binding := some h })

/-- One more holder of a cell. -/
def retain (c : CellId) (s : Store) : Store :=
  s.updateCell c fun cell => { cell with holders := cell.holders + 1 }

/-- One holder less. With the last holder the cell goes, and its root is given back. -/
def release (c : CellId) (s : Store) : Store :=
  match s.cell? c with
  | none => s
  | some cell =>
    if 1 < cell.holders then s.updateCell c fun cell => { cell with holders := cell.holders - 1 }
    else
      let s := { s with cells := s.cells.modify c.index fun _ => none }
      match cell.binding with
      | some h => s.unroot h
      | none => s

/-- One more holder of each cell of a list. -/
def retainAll (cs : List CellId) (s : Store) : Store := cs.foldl (fun s c => s.retain c) s

/-- One holder less of each cell of a list. -/
def releaseAll (cs : List CellId) (s : Store) : Store := cs.foldl (fun s c => s.release c) s

/-! ### Allocation -/

/-- A new slot without roots, at the next handle. The object becomes a holder of the cells in it. -/
def allocate (object : Object) (s : Store) : Handle × Store :=
  let s := s.retainAll object.cells
  (s.nextHandle,
    { s with
      slots := (s.slots.rightpad s.lastId none).push (some ⟨object, 0⟩)
      lastId := s.lastId + 1
      bounded := by
        have := s.bounded
        simp
        omega })

/-- A new slot for data. -/
def construct (data : Datum CellId) (s : Store) : Handle × Store := s.allocate (.value data)

/-- New slots for the fields in the given order, then one for the object; the later of two equal field names
counts. -/
def create (type : Handle) (fields : List (String × Datum CellId)) (s : Store) : Handle × Store :=
  let (members, s) := fields.foldl (fun (members, s) (name, data) =>
    let (h, s) := s.construct data
    (Keyed.insert name h members, s)) (([] : Keyed Handle), s)
  s.allocate (.structured type members)

/-- Raises a fault whose exception is a new slot for `data`. A fault that was pending is forgotten. -/
def raise (data : Datum CellId) (s : Store) : Store :=
  let (h, s) := s.construct data
  { s with fault := some h }

/-- Raises a fault whose exception is a text. -/
def raiseMessage (message : String) (s : Store) : Store := s.raise (.str message)

/-- The pending exception, as the bridge asks for it. -/
def pendingFault (s : Store) : Option Handle × Store := (s.fault, s.note .pendingFault)

/-- Forgets the pending fault. -/
def clearFault (s : Store) : Store := { s.note .clearFault with fault := none }

/-! ### Snapshots -/

/-- The value with each cell replaced by the handle it is bound to. -/
def snapshot (s : Store) (v : Value CellId) : Value Handle := v.map s.read

end Store

end ForeignBridge
