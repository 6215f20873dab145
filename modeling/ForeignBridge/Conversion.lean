import ForeignBridge.Value

/-! # Conversion policies

Eight kinds of native values have a counterpart in the foreign store. Which of them are converted is a matter of policy,
and so is how deep lists and records may nest. A value of a kind that is not enabled is never refused: it crosses as a
box that only the host can open. -/

namespace ForeignBridge

/-- A kind of native value that has a foreign counterpart. -/
inductive NativeKind where
  | nil
  | bool
  | int
  | float
  | string
  | symbol
  | list
  | record
deriving DecidableEq, Repr

namespace NativeKind

/-- All kinds in their fixed order. -/
def all : List NativeKind := [.nil, .bool, .int, .float, .string, .symbol, .list, .record]

/-- The name of a kind in settings. -/
def name : NativeKind → String
  | .nil => "nil"
  | .bool => "bool"
  | .int => "int"
  | .float => "float"
  | .string => "string"
  | .symbol => "symbol"
  | .list => "list"
  | .record => "record"

/-- The kind of a name. -/
def ofName? (name : String) : Option NativeKind := all.find? (·.name == name)

end NativeKind

/-- Which kinds are converted, and how deep lists and records may nest. -/
structure ConversionPolicy where
  /-- The enabled kinds in their fixed order. -/
  enabled : List NativeKind
  maxDepth : Nat
deriving DecidableEq, Repr

namespace ConversionPolicy

/-- The depth limit of the policies that set none. -/
def defaultMaxDepth : Nat := 64

/-- The policy that enables the given kinds, in any order and however often they are named. -/
def ofEnabled (kinds : List NativeKind) (maxDepth : Nat) : ConversionPolicy :=
  ⟨NativeKind.all.filter (kinds.contains ·), maxDepth⟩

/-- Everything is converted. -/
def full : ConversionPolicy := ofEnabled NativeKind.all defaultMaxDepth

/-- Nothing is converted, so every native value crosses in a box. -/
def boxing : ConversionPolicy := ofEnabled [] defaultMaxDepth

/-- The policy converts this kind. -/
def allows (p : ConversionPolicy) (k : NativeKind) : Bool := p.enabled.contains k

end ConversionPolicy

end ForeignBridge
