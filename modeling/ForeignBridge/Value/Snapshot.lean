import ForeignBridge.Text.Quoted
import ForeignBridge.Value

/-! # Snapshots of values

A snapshot is a value whose references are handles. Snapshots can be compared and shown without the store:

* numbers compare by value, so the two zeros are equal and a pattern for no number equals nothing, itself
  included;
* foreign objects compare by handle, functions also by their conversion flag. -/

namespace ForeignBridge

/-- A value in which every cell is replaced by the handle it is bound to. -/
abbrev Snapshot := Value Handle

namespace Snapshot

/-! ### Equality -/

mutual

/-- Equality of host values. -/
def same : Snapshot → Snapshot → Bool
  | .nil, .nil => true
  | .bool a, .bool b => a == b
  | .int a, .int b => a == b
  | .float a, .float b => a.numericallyEqual b
  | .str a, .str b => a == b
  | .symbol a, .symbol b => a == b
  | .list as, .list bs => sameItems as bs
  | .record as, .record bs => sameFields as bs
  | .foreign a, .foreign b => a == b
  | .function a auto, .function b auto' => a == b && auto == auto'
  | _, _ => false

/-- Equality of lists, item by item. -/
def sameItems : List Snapshot → List Snapshot → Bool
  | [], [] => true
  | a :: as, b :: bs => same a b && sameItems as bs
  | _, _ => false

/-- Equality of records, field by field. -/
def sameFields : List (String × Snapshot) → List (String × Snapshot) → Bool
  | [], [] => true
  | (j, a) :: as, (k, b) :: bs => j == k && same a b && sameFields as bs
  | _, _ => false

end

/-! ### Text -/

mutual

/-- The readable form of a value. -/
def render : Snapshot → String
  | .nil => "nil"
  | .bool b => if b then "true" else "false"
  | .int i => toString i.toInt
  | .float x => x.render
  | .str s => Text.quoted s
  | .symbol s => ":" ++ s
  | .list items => "[" ++ ", ".intercalate (renderItems items) ++ "]"
  | .record fields => "(" ++ ", ".intercalate (renderFields fields) ++ ")"
  | .foreign h => "<foreign-object " ++ h.render ++ ">"
  | .function h _ => "<foreign-function " ++ h.render ++ ">"

/-- The readable forms of the items of a list. -/
def renderItems : List Snapshot → List String
  | [] => []
  | v :: rest => render v :: renderItems rest

/-- Each field as its name, `:=` and its value. -/
def renderFields : List (String × Snapshot) → List String
  | [] => []
  | (key, v) :: rest => (key ++ " := " ++ render v) :: renderFields rest

end

end Snapshot

end ForeignBridge
