import ForeignBridge.Binary64
import ForeignBridge.Handle
import ForeignBridge.Keyed

/-! # Host values

A host value is native data or a reference into the foreign store. What a reference is depends on where the value
stands, so it is a parameter `ρ`:

* `Value CellId` is a live value, whose references are shared cells;
* `Value Handle` is a snapshot, in which each cell is replaced by the handle it is bound to;
* other choices of `ρ` describe values that are still to be built.

A record is a keyed table: its fields ascend by name and each name occurs once. -/

namespace ForeignBridge

/-- A value of the host, with references of type `ρ`. -/
inductive Value (ρ : Type) where
  | nil
  | bool (b : Bool)
  | int (i : Int64)
  | float (x : Binary64)
  | str (s : String)
  | symbol (name : String)
  | list (items : List (Value ρ))
  | record (fields : List (String × Value ρ))
  /-- A foreign object. -/
  | foreign (cell : ρ)
  /-- A foreign function; the flag asks for conversion of its arguments and result. -/
  | function (cell : ρ) (autoConvert : Bool)
deriving Repr, Inhabited

namespace Value

variable {ρ σ : Type}

/-! ### Tags -/

/-- The kinds of host values. -/
inductive Tag where
  | nil
  | bool
  | int
  | float
  | string
  | symbol
  | list
  | record
  | foreignObject
  | foreignFunction
deriving DecidableEq, Repr

/-- The name of a kind. -/
def Tag.name : Tag → String
  | .nil => "nil"
  | .bool => "bool"
  | .int => "int"
  | .float => "float"
  | .string => "string"
  | .symbol => "symbol"
  | .list => "list"
  | .record => "record"
  | .foreignObject => "foreign-object"
  | .foreignFunction => "foreign-function"

/-- The kind of a value. -/
def tag : Value ρ → Tag
  | .nil => .nil
  | .bool _ => .bool
  | .int _ => .int
  | .float _ => .float
  | .str _ => .string
  | .symbol _ => .symbol
  | .list _ => .list
  | .record _ => .record
  | .foreign _ => .foreignObject
  | .function _ _ => .foreignFunction

/-! ### Views -/

/-- The reference of a foreign object. -/
def object? : Value ρ → Option ρ
  | .foreign c => some c
  | _ => none

/-- The reference of a foreign object or function. -/
def reference? : Value ρ → Option ρ
  | .foreign c => some c
  | .function c _ => some c
  | _ => none

/-- Whether a foreign function converts its arguments and result. -/
def autoConvert? : Value ρ → Option Bool
  | .function _ auto => some auto
  | _ => none

/-- The integer of an integer value. -/
def int? : Value ρ → Option Int64
  | .int i => some i
  | _ => none

/-- The text of a string or symbol. -/
def text? : Value ρ → Option String
  | .str s => some s
  | .symbol s => some s
  | _ => none

/-! ### References -/

mutual

/-- Replaces every reference. -/
def map (f : ρ → σ) : Value ρ → Value σ
  | .nil => .nil
  | .bool b => .bool b
  | .int i => .int i
  | .float x => .float x
  | .str s => .str s
  | .symbol s => .symbol s
  | .list items => .list (mapItems f items)
  | .record fields => .record (mapFields f fields)
  | .foreign c => .foreign (f c)
  | .function c auto => .function (f c) auto

/-- Replaces every reference in a list. -/
def mapItems (f : ρ → σ) : List (Value ρ) → List (Value σ)
  | [] => []
  | v :: rest => map f v :: mapItems f rest

/-- Replaces every reference in a record. -/
def mapFields (f : ρ → σ) : List (String × Value ρ) → List (String × Value σ)
  | [] => []
  | (key, v) :: rest => (key, map f v) :: mapFields f rest

end

mutual

/-- Replaces every reference while a state is handed on from left to right. -/
def mapState {τ : Type} (f : ρ → τ → σ × τ) : Value ρ → τ → Value σ × τ
  | .nil, t => (.nil, t)
  | .bool b, t => (.bool b, t)
  | .int i, t => (.int i, t)
  | .float x, t => (.float x, t)
  | .str s, t => (.str s, t)
  | .symbol s, t => (.symbol s, t)
  | .list items, t =>
    let (items, t) := mapStateItems f items t
    (.list items, t)
  | .record fields, t =>
    let (fields, t) := mapStateFields f fields t
    (.record fields, t)
  | .foreign c, t =>
    let (c, t) := f c t
    (.foreign c, t)
  | .function c auto, t =>
    let (c, t) := f c t
    (.function c auto, t)

/-- Replaces every reference in a list while a state is handed on. -/
def mapStateItems {τ : Type} (f : ρ → τ → σ × τ) : List (Value ρ) → τ → List (Value σ) × τ
  | [], t => ([], t)
  | v :: rest, t =>
    let (v, t) := mapState f v t
    let (rest, t) := mapStateItems f rest t
    (v :: rest, t)

/-- Replaces every reference in a record while a state is handed on. -/
def mapStateFields {τ : Type} (f : ρ → τ → σ × τ) : List (String × Value ρ) → τ → List (String × Value σ) × τ
  | [], t => ([], t)
  | (key, v) :: rest, t =>
    let (v, t) := mapState f v t
    let (rest, t) := mapStateFields f rest t
    ((key, v) :: rest, t)

end

mutual

/-- Every reference in the value, from left to right, as often as it occurs. -/
def references : Value ρ → List ρ
  | .list items => referencesItems items
  | .record fields => referencesFields fields
  | .foreign c => [c]
  | .function c _ => [c]
  | _ => []

/-- Every reference in a list of values. -/
def referencesItems : List (Value ρ) → List ρ
  | [] => []
  | v :: rest => references v ++ referencesItems rest

/-- Every reference in the fields of a record. -/
def referencesFields : List (String × Value ρ) → List ρ
  | [] => []
  | (_, v) :: rest => references v ++ referencesFields rest

end

end Value

end ForeignBridge
