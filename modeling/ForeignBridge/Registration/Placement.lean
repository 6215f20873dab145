import ForeignBridge.Keyed
import ForeignBridge.Template

/-! # The order of registration

A family is placed only after every family that it depends on. Of the families that are ready at the same time single
types go first, and then names in ascending order, so the order is determined. Families that lie on a cycle of
dependencies, or behind one, are never ready. A dependency on a family that is not among the templates does not count.

The order is found by counting: each family waits for a number of others; placing one lowers the count of those that
depend on it, and a count that reaches zero makes a family ready. -/

namespace ForeignBridge

/-- The families in their order, and those that could not be placed. -/
structure Placement where
  order : List String
  /-- The families on a cycle or behind one, ascending. -/
  cyclic : List String
deriving DecidableEq, Repr

namespace Placement

/-- How a ready family ranks: single types before others, then by name. -/
structure Rank where
  compound : Bool
  name : String
deriving DecidableEq, Repr

instance : LT Rank where
  lt a b := (a.compound = false ∧ b.compound = true) ∨ (a.compound = b.compound ∧ a.name < b.name)

instance : DecidableLT Rank := fun a b => by
  unfold LT.lt instLTRank
  infer_instance

/-- The rank of a family by the last template of that name. -/
def rank (templates : List Template) (family : String) : Rank :=
  match templates.reverse.find? (·.family == family) with
  | some t => ⟨!t.isScalar, family⟩
  | none => ⟨true, family⟩

/-- The dependencies of a template that are among the templates. -/
def inside (templates : List Template) (t : Template) : List String :=
  t.dependencies.filter fun d => templates.any (·.family == d)

/-- How many families each family waits for; of two templates of one name the later counts. -/
def counts (templates : List Template) : Keyed Nat :=
  Keyed.ofList (templates.map fun t => (t.family, (inside templates t).length))

/-- The families that depend on the given one, in the order of their templates. -/
def dependents (templates : List Template) (family : String) : List String :=
  (templates.filter fun t => (inside templates t).contains family).map Template.family

/-- The families that are ready, ascending, and how many each of the others waits for. -/
structure Queue where
  ready : List Rank
  waiting : Keyed Nat

/-- Lowers the count of one family, which is ready when its count reaches zero. -/
def lower (templates : List Template) (q : Queue) (family : String) : Queue :=
  match q.waiting.get? family with
  | none => q
  | some n =>
    let waiting := q.waiting.insert family (n - 1)
    if n - 1 = 0 then ⟨Ascending.insert (rank templates family) q.ready, waiting⟩ else ⟨q.ready, waiting⟩

/-- Places the least ready family until none is ready, or as many as given. -/
def placeAll (templates : List Template) : Nat → Queue → List String
  | 0, _ => []
  | more + 1, q =>
    match q.ready with
    | [] => []
    | next :: rest =>
      let q := (dependents templates next.name).foldl (lower templates) ⟨rest, q.waiting⟩
      next.name :: placeAll templates more q

/-- The order of registration of a list of templates. -/
def ofTemplates (templates : List Template) : Placement :=
  let waiting := counts templates
  let ready := Ascending.ofList ((waiting.filter (·.2 = 0)).map fun e => rank templates e.1)
  let order := placeAll templates waiting.length ⟨ready, waiting⟩
  ⟨order, waiting.keys.filter (!order.contains ·)⟩

end Placement

end ForeignBridge
