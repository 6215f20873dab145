import ForeignBridge.Ascending
import ForeignBridge.TypeExpr

/-! # Templates of type families

A template says how one foreign type family is shown to the host: under which name, by which foreign spelling, with how
many parameters, after which other families, from which library version on, and with which instances to begin with.

An extension declares no family of its own. It adds instances to its base family and is registered as a unit, for
example arrays of polynomials, which need both families. -/

namespace ForeignBridge

/-- A foreign type family, or an extension of one. -/
structure Template where
  /-- The name that the host shows. -/
  family : String
  /-- The spelling of the foreign type constructor. -/
  foreignName : String
  /-- The number of type parameters. -/
  arity : Nat
  /-- The base family of an extension. -/
  base : Option String
  /-- The families that must be registered before. -/
  requires : List String
  /-- A requirement on the version of the foreign library. -/
  since : Option String
  /-- Type expressions that are registered along with the family. -/
  instances : List String
deriving DecidableEq, Repr

namespace Template

/-- A family with type parameters. -/
def generic (family foreignName : String) (arity : Nat) : Template := ⟨family, foreignName, arity, none, [], none, []⟩

/-- A single type without parameters. -/
def scalar (family foreignName : String) : Template := generic family foreignName 0

/-- Further instances of a base family. -/
def extension (name base : String) : Template := ⟨name, "", 0, some base, [base], none, []⟩

/-- Adds required families. -/
def requiring (t : Template) (families : List String) : Template := { t with requires := t.requires ++ families }

/-- Sets the version requirement. -/
def sinceVersion (t : Template) (requirement : String) : Template := { t with since := some requirement }

/-- Adds instances. -/
def withInstances (t : Template) (exprs : List String) : Template := { t with instances := t.instances ++ exprs }

/-- The template stands for a single type. -/
def isScalar (t : Template) : Bool := t.arity == 0 && t.base.isNone

/-- The template extends another family. -/
def isExtension (t : Template) : Bool := t.base.isSome

/-- The family whose constructor the instances go through. -/
def target (t : Template) : String := t.base.getD t.family

/-- The other families that must be registered before, ascending. -/
def dependencies (t : Template) : List String := Ascending.ofList (t.requires.filter (· != t.family))

/-- An extension claims the instances of its base whose parameters mention all other families it requires. -/
def claims (t : Template) (type : TypeExpr) : Bool :=
  match t.base with
  | none => false
  | some base =>
    let mentioned := TypeExpr.namesParams type.params
    type.name == base && t.requires.all fun r => r == base || mentioned.contains r

end Template

end ForeignBridge
