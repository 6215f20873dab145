/-! # Type expressions

A type expression is a family name applied to zero or more parameters. The parameters belong to its identity, so
`Array<Int>` and `Array<Rational>` differ.

Functions over an expression come in pairs, one for a single expression and one for a list of parameters. -/

namespace ForeignBridge

/-- A family name applied to type parameters. -/
structure TypeExpr where
  name : String
  params : List TypeExpr
deriving Repr, Hashable, Inhabited

namespace TypeExpr

/-- A family name without parameters. -/
def concrete (name : String) : TypeExpr := ⟨name, []⟩

/-- The expression has parameters. -/
def isParametric (t : TypeExpr) : Bool := !t.params.isEmpty

/-! ### Identity and order -/

mutual

/-- Equality of expressions by comparison of all names. -/
def decEq : (a b : TypeExpr) → Decidable (a = b)
  | ⟨m, ps⟩, ⟨n, qs⟩ =>
    if h : m = n then
      match decEqParams ps qs with
      | .isTrue hp => .isTrue (by rw [h, hp])
      | .isFalse hp => .isFalse (fun e => hp (by injection e))
    else .isFalse (fun e => h (by injection e))

/-- Equality of parameter lists. -/
def decEqParams : (ps qs : List TypeExpr) → Decidable (ps = qs)
  | [], [] => .isTrue rfl
  | [], _ :: _ => .isFalse (by simp)
  | _ :: _, [] => .isFalse (by simp)
  | p :: ps, q :: qs =>
    match decEq p q, decEqParams ps qs with
    | .isTrue h, .isTrue hs => .isTrue (by rw [h, hs])
    | .isFalse h, _ => .isFalse (fun e => h (by injection e))
    | _, .isFalse hs => .isFalse (fun e => hs (by injection e))

end

instance : DecidableEq TypeExpr := decEq

mutual

/-- By name, then by parameters from the left; a shorter list of parameters comes first. -/
def compare : TypeExpr → TypeExpr → Ordering
  | ⟨m, ps⟩, ⟨n, qs⟩ => (Ord.compare m n).then (compareParams ps qs)

/-- The lexicographic order of parameter lists. -/
def compareParams : List TypeExpr → List TypeExpr → Ordering
  | [], [] => .eq
  | [], _ :: _ => .lt
  | _ :: _, [] => .gt
  | p :: ps, q :: qs => (compare p q).then (compareParams ps qs)

end

instance : Ord TypeExpr := ⟨compare⟩

/-! ### Shape -/

mutual

/-- How deep parameters nest: zero without parameters. -/
def depth : TypeExpr → Nat
  | ⟨_, ps⟩ => depthParams ps

/-- One more than the deepest parameter, zero without any. -/
def depthParams : List TypeExpr → Nat
  | [] => 0
  | p :: ps => max (depth p + 1) (depthParams ps)

end

mutual

/-- Every name in the expression, outermost first. -/
def names : TypeExpr → List String
  | ⟨n, ps⟩ => n :: namesParams ps

/-- Every name in a list of parameters. -/
def namesParams : List TypeExpr → List String
  | [] => []
  | p :: ps => names p ++ namesParams ps

end

mutual

/-- Replaces every name. -/
def mapNames (rename : String → String) : TypeExpr → TypeExpr
  | ⟨n, ps⟩ => ⟨rename n, mapNamesParams rename ps⟩

/-- Replaces every name in a list of parameters. -/
def mapNamesParams (rename : String → String) : List TypeExpr → List TypeExpr
  | [] => []
  | p :: ps => mapNames rename p :: mapNamesParams rename ps

end

end TypeExpr

end ForeignBridge
