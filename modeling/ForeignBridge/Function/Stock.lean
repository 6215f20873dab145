import ForeignBridge.Program

/-! # Stock functions

Foreign functions with fixed behaviours: they return, copy or combine their arguments, ask the runtime about them, raise
faults, collect, and call on. Each is a program by its arguments. -/

namespace ForeignBridge.Stock

/-- The behaviour of a function by its arguments. -/
abbrev Behaviour := List Handle → Program

/-- Goes on with the first argument; there must be one. -/
def withFirst (next : Handle → List Handle → Program) : Behaviour
  | [] => .fail "ArgumentError: no argument"
  | h :: rest => next h rest

/-- Returns the handle of a new slot for data. -/
def answer (data : Datum Nat) : Program := .ask (.construct data) .done

/-- Returns the first argument. -/
def identity : Behaviour := withFirst fun h _ => .done h

/-- Raises a fault with the message. -/
def failing (message : String) : Behaviour := fun _ => .fail message

/-- Returns the same handle always. -/
def constant (h : Handle) : Behaviour := fun _ => .done h

/-- Returns a new copy of the data each time. -/
def copying (data : Datum Nat) : Behaviour := fun _ => answer data

/-- Adds integers to a total, wrapping around at 64 bits. -/
def sumFrom (total : Int64) : Behaviour
  | [] => answer (.int total)
  | h :: rest => .ask (.inspect h) fun data =>
    match data with
    | .int i => sumFrom (total + i) rest
    | _ => .fail "ArgumentError: expected an integer"

/-- The sum of integers. -/
def sum : Behaviour := sumFrom 0

/-- The readable form of the first argument; empty if it has none. -/
def stringify : Behaviour := withFirst fun h _ =>
  .ask (.describe h) fun text => answer (.str (text.getD ""))

/-- Whether every argument has a root. -/
def rooted : Behaviour
  | [] => answer (.bool true)
  | h :: rest => .ask (.rootCount h) fun n => if 0 < n then rooted rest else answer (.bool false)

/-- The number of arguments. -/
def count : Behaviour := fun args => answer (.int (Int64.ofNat args.length))

/-- An array of the arguments. -/
def pack : Behaviour := fun args => answer (.array args)

/-- A dictionary of consecutive arguments. -/
def dict : Behaviour := fun args => answer (.dict (Datum.pairUp args))

/-- The argument at a place, counted from zero. -/
def nth (index : Nat) : Behaviour := fun args =>
  match args[index]? with
  | some h => .done h
  | none => .fail "BoundsError: no such argument"

/-- Runs a collection and returns how many slots it reclaimed. -/
def collecting : Behaviour := fun _ => .ask .collect fun n => answer (.int (Int64.ofNat n))

/-- Raises a fault with the data and returns all the same. -/
def raiseThen (data : Datum Nat) (h : Handle) : Behaviour := fun _ => .ask (.raise data) fun _ => .done h

/-- Calls the first argument with the others and returns its result, fault or not. -/
def calling : Behaviour := withFirst fun f args => .ask (.call f args) .done

/-- Reads a field of the first argument and returns the result, fault or not. -/
def field (name : String) : Behaviour := withFirst fun h _ => .ask (.readField h name) .done

/-- The type object of the first argument. -/
def typing : Behaviour := withFirst fun h _ => .ask (.typeOf h) .done

/-- Inspects every argument in order and goes on with the data. -/
def inspectAll (next : List (Datum Nat) → Program) : Behaviour
  | [] => next []
  | h :: rest => .ask (.inspect h) fun data => inspectAll (fun more => next (data :: more)) rest

/-- A new object of a type whose fields are copies of the arguments. -/
def making (type : Handle) (names : List String) : Behaviour :=
  inspectAll fun data => .ask (.create type (names.zip data)) .done

end ForeignBridge.Stock
