import ForeignBridge.Catalog
import ForeignBridge.Keyed
import ForeignBridge.TypeExpr.Reader

/-! # Foreign spellings of types

A table of spellings translates type expressions between the host and the foreign library name by name, as in
`pm::Array<long>` and `Array<Int>`. A family whose foreign spelling is itself an applied type, such as
`pm::TropicalNumber<pm::Min,pm::Rational>`, is matched as a whole, at every level of an expression. -/

namespace ForeignBridge

/-- Why a type has no counterpart. -/
inductive SpellingError where
  | malformed (e : TypeSyntaxError)
  /-- The foreign name stands for no family. -/
  | unknownForeign (name : String)
  /-- The host name stands for no family. -/
  | unknownFamily (name : String)
deriving DecidableEq, Repr

/-- What went wrong, in words. -/
def SpellingError.message : SpellingError → String
  | .malformed e => e.message
  | .unknownForeign name => s!"no host type registered for foreign type '{name}'"
  | .unknownFamily name => s!"unknown type family: {name}"

/-- Host names by foreign spelling and foreign spellings by host name. -/
structure Spellings where
  host : Keyed String
  foreign : Keyed String
deriving DecidableEq, Repr

namespace Spellings

/-- The spelling without blanks, if it is a type expression. -/
def canonical (spelling : String) : String :=
  match TypeExpr.read spelling with
  | .ok t => t.render
  | .error _ => spelling

/-- Adds the spelling of a family, replacing what it collides with. -/
def add (table : Spellings) (t : Template) : Spellings :=
  let spelling := canonical t.foreignName
  ⟨table.host.insert spelling t.family, table.foreign.insert t.family spelling⟩

/-- The spellings of a list of templates; extensions have none. -/
def ofTemplates (templates : List Template) : Spellings :=
  (templates.filter (!·.isExtension)).foldl add ⟨[], []⟩

/-- The spellings of the catalog. -/
def standard : Spellings := ofTemplates Catalog.templates

/-- Every foreign spelling with its host name, ascending. -/
def pairs (table : Spellings) : List (String × String) := table.host

mutual

/-- The host type of a foreign type expression. -/
def hostOf (table : Spellings) : TypeExpr → Except SpellingError TypeExpr
  | ⟨n, ps⟩ =>
    match table.host.get? (TypeExpr.render ⟨n, ps⟩) with
    | some whole => .ok (.concrete whole)
    | none =>
      match table.host.get? n with
      | none => .error (.unknownForeign n)
      | some name =>
        match hostOfAll table ps with
        | .ok qs => .ok ⟨name, qs⟩
        | .error e => .error e

/-- The host types of a list of parameters; the first that fails decides. -/
def hostOfAll (table : Spellings) : List TypeExpr → Except SpellingError (List TypeExpr)
  | [] => .ok []
  | p :: ps =>
    match hostOf table p with
    | .error e => .error e
    | .ok q =>
      match hostOfAll table ps with
      | .ok qs => .ok (q :: qs)
      | .error e => .error e

end

/-- The host type of a text that is a foreign type expression. -/
def toHost (table : Spellings) (text : String) : Except SpellingError TypeExpr :=
  match TypeExpr.ofString text with
  | .ok t => table.hostOf t
  | .error e => .error (.malformed e)

mutual

/-- The foreign spelling of a host type. -/
def toForeign (table : Spellings) : TypeExpr → Except SpellingError String
  | ⟨n, ps⟩ =>
    match table.foreign.get? n with
    | none => .error (.unknownFamily n)
    | some spelling =>
      match toForeignAll table ps with
      | .error e => .error e
      | .ok [] => .ok spelling
      | .ok (q :: qs) => .ok (spelling ++ "<" ++ ",".intercalate (q :: qs) ++ ">")

/-- The foreign spellings of a list of parameters; the first that fails decides. -/
def toForeignAll (table : Spellings) : List TypeExpr → Except SpellingError (List String)
  | [] => .ok []
  | p :: ps =>
    match toForeign table p with
    | .error e => .error e
    | .ok q =>
      match toForeignAll table ps with
      | .ok qs => .ok (q :: qs)
      | .error e => .error e

end

end Spellings

end ForeignBridge
