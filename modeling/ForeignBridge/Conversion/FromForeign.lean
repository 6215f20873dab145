import ForeignBridge.Bridge.Error
import ForeignBridge.Conversion
import ForeignBridge.Store.Call

/-! # Converting from the foreign store

A converted value belongs to the caller, who is a holder of every cell in it. A boxed host value comes back as it was
put in. Data of a kind that is not enabled comes back as a foreign object, and so does a dictionary that is no record:
one with a key that is neither a string nor a symbol, or with two keys of the same text.

When a part fails, the parts before it are released. -/

namespace ForeignBridge

namespace ConversionPolicy

/-- Converts the slot of a handle. -/
abbrev Decoder := Handle → Store → Except BridgeError (Value CellId) × Store

/-- The value of a foreign object. -/
def object (h : Handle) (s : Store) : Value CellId × Store :=
  let (c, s) := s.hold h
  (.foreign c, s)

/-- Converts handles from left to right. -/
def decodeItems (decode : Decoder) : List Handle → Store → Except BridgeError (List (Value CellId)) × Store
  | [], s => (.ok [], s)
  | h :: rest, s =>
    match decode h s with
    | (.error e, s) => (.error e, s)
    | (.ok v, s) =>
      match decodeItems decode rest s with
      | (.error e, s) => (.error e, s.releaseAll v.references)
      | (.ok vs, s) => (.ok (v :: vs), s)

/-- The text of a key that can name a field. -/
def keyText? : Datum CellId → Option String
  | .str text => some text
  | .symbol text => some text
  | _ => none

/-- Converts pairs from left to right into the fields of a record, of which `fields` are there already. The result is
none at the first key that cannot name a field or names one that is there. -/
def decodePairs (decode : Decoder) (fields : Keyed (Value CellId)) : List (Handle × Handle) → Store →
    Except BridgeError (Option (Keyed (Value CellId))) × Store
  | [], s => (.ok (some fields), s)
  | (k, h) :: rest, s =>
    let (data, s) := s.inspect k
    let discard := fun (s : Store) => s.releaseAll (Value.referencesFields fields)
    match keyText? data with
    | none => (.ok none, discard s)
    | some key =>
      if Keyed.has key fields then (.ok none, discard s)
      else
        match decode h s with
        | (.error e, s) => (.error e, discard s)
        | (.ok v, s) => decodePairs decode (Keyed.insert key v fields) rest s

/-- Converts the slot of a handle, through at most `budget` slots in a row. -/
def fromForeignWithin (p : ConversionPolicy) : Nat → Decoder
  | 0, _, s => (.error (.tooDeep p.maxDepth), s)
  | budget + 1, h, s =>
    let (data, s) := s.inspect h
    let native := fun (k : NativeKind) (v : Value CellId) =>
      if p.allows k then (.ok v, s)
      else
        let (v, s) := object h s
        ((.ok v, s) : Except BridgeError (Value CellId) × Store)
    match data with
    | .host v => (.ok v, s.retainAll v.references)
    | .nothing => native .nil .nil
    | .bool b => native .bool (.bool b)
    | .int i => native .int (.int i)
    | .float x => native .float (.float x)
    | .str text => native .string (.str text)
    | .symbol name => native .symbol (.symbol name)
    | .array items =>
      if p.allows .list then
        match decodeItems (p.fromForeignWithin budget) items s with
        | (.error e, s) => (.error e, s)
        | (.ok vs, s) => (.ok (.list vs), s)
      else
        let (v, s) := object h s
        (.ok v, s)
    | .dict pairs =>
      if p.allows .record then
        match decodePairs (p.fromForeignWithin budget) [] pairs s with
        | (.error e, s) => (.error e, s)
        | (.ok (some fields), s) => (.ok (.record fields), s)
        | (.ok none, s) =>
          let (v, s) := object h s
          (.ok v, s)
      else
        let (v, s) := object h s
        (.ok v, s)
    | .unknown =>
      let (v, s) := object h s
      (.ok v, s)

/-- Converts the slot of a handle into a host value that belongs to the caller. -/
def fromForeign (p : ConversionPolicy) : Decoder := p.fromForeignWithin (p.maxDepth + 1)

end ConversionPolicy

end ForeignBridge
