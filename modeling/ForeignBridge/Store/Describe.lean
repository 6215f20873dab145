import ForeignBridge.Store
import ForeignBridge.Value.Snapshot

/-! # Describing slots

The readable form of a slot. Arrays, applied types and objects are described through the slots they refer to;
namespaces are not, since they may refer upward. Nothing keeps a description from going in a circle, and then it never
ends. So what comes of a description is an `Option (Option String)`: nothing if it does not end, and else the readable
form, if there is one.

A description that goes through more slots in a row than the store has goes in a circle. So `describeWithin` with that
many levels tells whether a description ends, and how. -/

namespace ForeignBridge

namespace Store

/-- The readable form of data, with the items of an array described by `describe`. -/
def describeDatum (s : Store) (describe : Handle → Option (Option String)) : Datum CellId → Option (Option String)
  | .nothing => some "nothing"
  | .bool b => some (if b then "true" else "false")
  | .int i => some (toString i.toInt)
  | .float x => some x.render
  | .str text => some text
  | .symbol name => some (":" ++ name)
  | .array items => do
    let parts ← items.mapM describe
    return "[" ++ ", ".intercalate (parts.map (·.getD "?")) ++ "]"
  | .dict pairs => some s!"Dict with {pairs.length} entries"
  | .host v => some ("host value " ++ Snapshot.render (s.snapshot v))
  | .unknown => some none

/-- The readable form of an object, with the slots it refers to described by `describe`. Parameters of a type that
cannot be described are left out. -/
def describeObject (s : Store) (describe : Handle → Option (Option String)) : Object → Option (Option String)
  | .value data => s.describeDatum describe data
  | .module name _ => some ("module " ++ name)
  | .function name _ _ => some ("function " ++ name)
  | .family name => some name
  | .type head params => do
    match ← describe head with
    | none => return none
    | some name =>
      if params.isEmpty then return name
      else
        let parts ← params.mapM describe
        return name ++ "<" ++ ",".intercalate (parts.filterMap id) ++ ">"
  | .structured head _ => do return "<" ++ (← describe head).getD "?" ++ " object>"

/-- The description of a slot, if it ends and goes through fewer than `depth` slots in a row. -/
def describeWithin (s : Store) : Nat → Handle → Option (Option String)
  | 0, _ => none
  | depth + 1, h =>
    match s.object? h with
    | none => some none
    | some object => s.describeObject (s.describeWithin depth) object

/-- What comes of the description of a slot. -/
def description (s : Store) (h : Handle) : Option (Option String) := s.describeWithin (s.slots.size + 1) h

/-- The readable form of a slot, as the bridge asks for it. -/
def describe (h : Handle) (s : Store) : Option String × Store :=
  let s := s.note .describe
  match s.description h with
  | some text => (text, s)
  | none => (none, s.halt)

/-- Raises a fault with a message about a slot, which goes by its readable form or else by its handle. -/
def raiseAbout (h : Handle) (message : String → String) (s : Store) : Store :=
  match s.description h with
  | some text => s.raiseMessage (message (text.getD h.render))
  | none => s.halt

end Store

end ForeignBridge
