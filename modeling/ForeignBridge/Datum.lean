import ForeignBridge.Value

/-! # Foreign data

The structural view of what a slot of the foreign store holds, as far as the bridge understands it. Containers hold
handles of other slots; `host` is a host value that the store keeps without looking into it. -/

namespace ForeignBridge

/-- Data of the foreign store, in which boxed host values have references of type `ρ`. -/
inductive Datum (ρ : Type) where
  /-- The foreign unit value. -/
  | nothing
  | bool (b : Bool)
  | int (i : Int64)
  | float (x : Binary64)
  | str (s : String)
  | symbol (name : String)
  /-- A one-dimensional array. -/
  | array (items : List Handle)
  /-- Pairs of key and value in the order of insertion. -/
  | dict (pairs : List (Handle × Handle))
  /-- A boxed host value. -/
  | host (v : Value ρ)
  /-- Something the bridge has no structural view of. -/
  | unknown
deriving Repr, Inhabited

namespace Datum

variable {ρ σ : Type}

/-- Replaces the references of a boxed value. -/
def map (f : ρ → σ) : Datum ρ → Datum σ
  | .nothing => .nothing
  | .bool b => .bool b
  | .int i => .int i
  | .float x => .float x
  | .str s => .str s
  | .symbol s => .symbol s
  | .array items => .array items
  | .dict pairs => .dict pairs
  | .host v => .host (v.map f)
  | .unknown => .unknown

/-- The references of a boxed value; no other data has any. -/
def references : Datum ρ → List ρ
  | .host v => v.references
  | _ => []

/-- The slots that a container refers to, from left to right. -/
def handles : Datum ρ → List Handle
  | .array items => items
  | .dict pairs => pairs.flatMap fun kv => [kv.1, kv.2]
  | _ => []

/-- The consecutive pairs of a list, as a dictionary has them; an odd last member is left out. -/
def pairUp {α : Type} : List α → List (α × α)
  | k :: v :: rest => (k, v) :: pairUp rest
  | _ => []

end Datum

end ForeignBridge
