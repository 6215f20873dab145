import ForeignBridge.Store

/-! # Type families and applied types

A family is provided once under its foreign name. Applying a family to parameters gives a type object; the same family
and parameters always give the same object. So families and types are entered in tables when their slots are made, and
looked up there. What is in the tables is never reclaimed. -/

namespace ForeignBridge

namespace Store

/-- The family under a foreign name. -/
def family? (s : Store) (name : String) : Option Handle := s.families.get? name

/-- The family under a foreign name, provided anew if there is none. -/
def provideFamily (name : String) (s : Store) : Handle × Store :=
  match s.family? name with
  | some h => (h, s)
  | none =>
    let (h, s) := s.allocate (.family name)
    (h, { s with families := s.families.insert name h })

/-- A new store that provides families under the given names, in this order. -/
def providing (version : Version) (names : List String) (stack : Nat := 10000) : Store :=
  names.foldl (fun s name => (s.provideFamily name).2) (ofVersion version stack)

/-- The slot holds a family. -/
def isFamily (s : Store) (h : Handle) : Bool :=
  match s.object? h with
  | some (.family _) => true
  | _ => false

/-- The type object of a family and parameters. -/
def applied? (s : Store) (head : Handle) (params : List Handle) : Option Handle := s.applied.lookup (head, params)

/-- Applies a family to parameters. Without parameters the family is its own type; anything that is no family raises
a fault and gives null. -/
def applyFamily (head : Handle) (params : List Handle) (s : Store) : Handle × Store :=
  let s := s.note .applyFamily
  if !s.isFamily head then
    (Handle.null, s.raiseMessage s!"TypeError: {head.render} is not a type constructor")
  else if params.isEmpty then (head, s)
  else
    match s.applied? head params with
    | some h => (h, s)
    | none =>
      let (h, s) := s.allocate (.type head params)
      (h, { s with applied := s.applied.insert (head, params) h })

/-- The type object of what a slot holds; null for data without one. -/
def typeOf (s : Store) (h : Handle) : Handle :=
  let scalar := fun name => (s.family? name).getD Handle.null
  match s.object? h with
  | some (.value (.bool _)) => scalar "bool"
  | some (.value (.int _)) => scalar "long"
  | some (.value (.float _)) => scalar "double"
  | some (.value (.str _)) => scalar "std::string"
  | some (.structured head _) => head
  | _ => Handle.null

end Store

end ForeignBridge
