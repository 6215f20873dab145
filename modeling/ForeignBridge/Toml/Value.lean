/-! # TOML values

The values of a TOML document. Tables keep the order in which their keys were written. Floats and dates keep their text:
no setting is read from one. -/

namespace ForeignBridge.Toml

/-- A TOML value. -/
inductive Value where
  | text (s : String)
  | integer (i : Int)
  | float (written : String)
  | boolean (b : Bool)
  /-- A date, a time or both. -/
  | moment (written : String)
  | array (items : List Value)
  | table (entries : List (String × Value))
deriving Repr, Inhabited

end ForeignBridge.Toml
