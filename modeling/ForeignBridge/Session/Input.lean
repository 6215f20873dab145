import ForeignBridge.Datum
import ForeignBridge.Program

/-! # Inputs of session steps

Values, data and handles in a step may refer to the variables of the session. -/

namespace ForeignBridge.Session

/-- A handle by its number, or the handle behind a variable. -/
inductive HandleInput where
  | number (h : Handle)
  | named (name : String)
deriving DecidableEq, Repr, Inhabited

/-- A reference in a value of a step. -/
inductive ReferenceInput where
  /-- A new cell for a handle. -/
  | fresh (h : HandleInput)
  /-- Whatever a variable holds, in place of a foreign object. -/
  | splice (name : String)
deriving DecidableEq, Repr, Inhabited

/-- A value of a step. -/
abbrev ValueInput := Value ReferenceInput

/-- Data of a step. -/
inductive DatumInput where
  /-- Data without handles. -/
  | plain (data : Datum ReferenceInput)
  | array (items : List HandleInput)
  | dict (pairs : List (HandleInput × HandleInput))
deriving Inhabited

/-- A function: a stock function by name, with the inputs that are fixed when it is defined, or any other. -/
inductive FunctionInput where
  | identity
  | failing (message : String)
  | constant (h : HandleInput)
  | copying (data : DatumInput)
  | sum
  | stringify
  | rooted
  | count
  | pack
  | dict
  | nth (index : Nat)
  | collecting
  | raiseThen (data : DatumInput) (h : HandleInput)
  | calling
  | field (name : String)
  | typing
  | making (type : HandleInput) (fields : List String)
  /-- Any behaviour, which captures the cells of variables. -/
  | custom (captured : List String) (body : List Handle → Program)

end ForeignBridge.Session
