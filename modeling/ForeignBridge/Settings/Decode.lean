import ForeignBridge.Settings.Error
import ForeignBridge.Toml.Document

/-! # Decoding settings

A decoder takes a TOML value apart. Entries are decoded in the order of the document, so the error is that of the first
entry that does not fit.

A record of settings is written as a table, and its unknown keys are ignored. It may also be written as an array, which
gives its fields in their fixed order and may end early. A date counts as a table without known keys. -/

namespace ForeignBridge.Settings

/-- Decodes a TOML value. -/
abbrev Decoder (α : Type) := Toml.Value → Except SettingsError α

/-- The value does not have the expected shape. -/
def unfit {α : Type} : Except SettingsError α := .error (.malformed none)

/-- Decodes a text. -/
def text : Decoder String
  | .text s => .ok s
  | _ => unfit

/-- Decodes a truth value. -/
def boolean : Decoder Bool
  | .boolean b => .ok b
  | _ => unfit

/-- Decodes a number that is not negative. -/
def natural : Decoder Nat
  | .integer i => if 0 ≤ i then .ok i.toNat else unfit
  | _ => unfit

/-- Decodes an array, item by item. -/
def listOf {α : Type} (item : Decoder α) : Decoder (List α)
  | .array vs => vs.mapM item
  | _ => unfit

/-- Decodes a type expression. -/
def typeExpr : Decoder TypeExpr := fun v => do
  match TypeExpr.ofString (← text v) with
  | .ok t => .ok t
  | .error e => .error (.malformed (some e))

/-- The value is an empty array or table. -/
def isVacant : Toml.Value → Bool
  | .array vs => vs.isEmpty
  | .table es => es.isEmpty
  | _ => false

/-- Decodes a choice: its name, or a table of one key with nothing under it. -/
def choice {α : Type} (named : String → Option α) : Decoder α := fun v =>
  let found :=
    match v with
    | .text s => named s
    | .table [(key, v)] => (named key).filter fun _ => isVacant v
    | _ => none
  match found with
  | some a => .ok a
  | none => unfit

/-- The entries of a record with the given fields. -/
def entries (fields : List String) : Decoder (List (String × Toml.Value))
  | .table es => .ok es
  | .array vs => .ok (fields.zip vs)
  | .moment _ => .ok []
  | _ => unfit

/-- Decodes a record by decoding its entries one after the other into the defaults. -/
def record {α : Type} (fields : List String) (step : α → String → Decoder α) (defaults : α) : Decoder α := fun v => do
  (← entries fields v).foldlM (fun a (key, v) => step a key v) defaults

/-- Decodes the tables of a whole document. -/
def document {α : Type} (step : α → String → Decoder α) (defaults : α) (source : String) : Except SettingsError α :=
  match Toml.document? source with
  | none => unfit
  | some es => es.foldlM (fun a (key, v) => step a key v) defaults

end ForeignBridge.Settings
