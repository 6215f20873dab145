import Mathlib
import ForeignBridge.Registration

/-! # The order and depth of type expressions

Type expressions are compared by name and then by parameters. The comparison is a linear order (`TransCmp`,
`LawfulEqCmp`): each step is lexicographic, and `then_isLE_trans` is the one fact about such a step. So the requests of
a registration are sorted by depth, each being there as often as it was made. -/

namespace ForeignBridge

/-- A lexicographic step is transitive where its first part is, and its second part is among equals. -/
theorem then_isLE_trans {ab bc ac ab' bc' ac' : Ordering} (first : ab.isLE = true → bc.isLE = true → ac.isLE = true)
    (equal : ac = .eq → ab.isLE = true → bc.isLE = true → ab = .eq ∧ bc = .eq)
    (second : ab'.isLE = true → bc'.isLE = true → ac'.isLE = true) (le : (ab.then ab').isLE = true)
    (le' : (bc.then bc').isLE = true) : (ac.then ac').isLE = true := by
  rw [Ordering.isLE_then_iff_and] at le le' ⊢
  obtain ⟨le₁, rest⟩ := le
  obtain ⟨le₂, rest'⟩ := le'
  refine ⟨first le₁ le₂, ?_⟩
  cases step : ac with
  | lt => exact .inl rfl
  | gt =>
    have := first le₁ le₂
    rw [step] at this
    cases this
  | eq =>
    obtain ⟨rfl, rfl⟩ := equal step le₁ le₂
    exact .inr (second (rest.resolve_left (by simp)) (rest'.resolve_left (by simp)))

namespace TypeExpr

mutual

theorem eq_of_compare : ∀ {a b : TypeExpr}, compare a b = .eq → a = b
  | ⟨m, ps⟩, ⟨n, qs⟩, same => by
      obtain ⟨name, params⟩ := Ordering.then_eq_eq.mp same
      rw [Std.LawfulEqOrd.eq_of_compare name, eq_of_compareParams params]

theorem eq_of_compareParams : ∀ {ps qs : List TypeExpr}, compareParams ps qs = .eq → ps = qs
  | [], [], _ => rfl
  | [], _ :: _, same => by cases same
  | _ :: _, [], same => by cases same
  | p :: ps, q :: qs, same => by
      obtain ⟨first, rest⟩ := Ordering.then_eq_eq.mp same
      rw [eq_of_compare first, eq_of_compareParams rest]

end

mutual

theorem compare_swap : ∀ a b : TypeExpr, compare a b = (compare b a).swap
  | ⟨m, ps⟩, ⟨n, qs⟩ => by
      simp only [compare]
      rw [Ordering.swap_then, ← Std.OrientedCmp.eq_swap, ← compareParams_swap]

theorem compareParams_swap : ∀ ps qs : List TypeExpr, compareParams ps qs = (compareParams qs ps).swap
  | [], [] => rfl
  | [], _ :: _ => rfl
  | _ :: _, [] => rfl
  | p :: ps, q :: qs => by
      simp only [compareParams]
      rw [Ordering.swap_then, ← compare_swap, ← compareParams_swap]

end

/-- Two expressions each of which is at most the other are equal. -/
theorem compare_eq_of_isLE {a b : TypeExpr} (le : (compare a b).isLE = true) (ge : (compare b a).isLE = true) :
    compare a b = .eq := by
  cases order : compare a b with
  | eq => rfl
  | lt =>
    rw [compare_swap, order] at ge
    cases ge
  | gt =>
    rw [order] at le
    cases le

mutual

theorem compare_isLE_trans : ∀ {a b c : TypeExpr}, (compare a b).isLE = true → (compare b c).isLE = true →
    (compare a c).isLE = true
  | ⟨l, ps⟩, ⟨m, qs⟩, ⟨n, rs⟩, le, le' => by
      refine then_isLE_trans (fun h h' => Std.TransCmp.isLE_trans h h') (fun same h h' => ?_)
        (fun h h' => compareParams_isLE_trans h h') le le'
      obtain rfl := Std.LawfulEqOrd.eq_of_compare same
      have forth := Std.OrientedCmp.isLE_antisymm h h'
      exact ⟨forth, by rw [Std.OrientedOrd.eq_swap, forth, Ordering.swap_eq]⟩

theorem compareParams_isLE_trans : ∀ {ps qs rs : List TypeExpr}, (compareParams ps qs).isLE = true →
    (compareParams qs rs).isLE = true → (compareParams ps rs).isLE = true
  | [], _, [], _, _ => rfl
  | [], _, _ :: _, _, _ => rfl
  | _ :: _, [], _, le, _ => by cases le
  | _ :: _, _ :: _, [], _, le' => by cases le'
  | p :: ps, q :: qs, r :: rs, le, le' => by
      refine then_isLE_trans (fun h h' => compare_isLE_trans h h') (fun same h h' => ?_)
        (fun h h' => compareParams_isLE_trans h h') le le'
      obtain rfl := eq_of_compare same
      exact ⟨compare_eq_of_isLE h h', compare_eq_of_isLE h' h⟩

end

instance : Std.TransCmp compare where
  eq_swap {a b} := compare_swap a b
  isLE_trans := compare_isLE_trans

mutual

theorem compare_self : ∀ a : TypeExpr, compare a a = .eq
  | ⟨_, ps⟩ => Ordering.then_eq_eq.mpr ⟨Std.ReflCmp.compare_self, compareParams_self ps⟩

theorem compareParams_self : ∀ ps : List TypeExpr, compareParams ps ps = .eq
  | [] => rfl
  | p :: ps => Ordering.then_eq_eq.mpr ⟨compare_self p, compareParams_self ps⟩

end

instance : Std.LawfulEqCmp compare where
  compare_self {a} := compare_self a
  eq_of_compare := eq_of_compare

/-! ### Depth -/

theorem depthParams_le_iff {n : ℕ} : ∀ {ps : List TypeExpr}, depthParams ps ≤ n ↔ ∀ p ∈ ps, p.depth + 1 ≤ n
  | [] => by simp [depthParams]
  | p :: ps => by simp [depthParams, depthParams_le_iff]

/-- A parameter is less deep than the type. -/
theorem depth_lt_of_mem {t p : TypeExpr} (hp : p ∈ t.params) : p.depth < t.depth := by
  obtain ⟨name, params⟩ := t
  exact depthParams_le_iff.mp le_rfl p hp

/-! ### By depth and then by the order of types -/

theorem depth_then_swap (a b : TypeExpr) : (Ord.compare a.depth b.depth).then (compare a b) =
    ((Ord.compare b.depth a.depth).then (compare b a)).swap := by
  rw [Ordering.swap_then, ← Nat.compare_swap, ← compare_swap]

/-- A type comes before another one: it is shallower, or as deep and smaller. -/
def Earlier (a b : TypeExpr) : Prop := (Ord.compare a.depth b.depth).then (compare a b) = .lt

instance : Std.Asymm Earlier where
  asymm a b earlier := by
    unfold Earlier at earlier ⊢
    rw [depth_then_swap, earlier]
    exact nofun

end TypeExpr

namespace Registration

/-! ### Sorted requests -/

theorem comesBefore_trans (a b c : Pending) (le : comesBefore a b = true) (le' : comesBefore b c = true) :
    comesBefore a c = true := by
  refine then_isLE_trans (fun h h' => Std.TransCmp.isLE_trans h h') (fun same h h' => ?_)
    (fun h h' => TypeExpr.compare_isLE_trans h h') le le'
  simp only [Nat.compare_eq_eq, Nat.isLE_compare] at same h h' ⊢
  omega

theorem comesBefore_total (a b : Pending) : (comesBefore a b || comesBefore b a) = true := by
  have swap := TypeExpr.depth_then_swap a.type b.type
  unfold comesBefore
  change (Ordering.isLE ((Ord.compare a.type.depth b.type.depth).then (TypeExpr.compare a.type b.type)) || _) = true
  rw [swap]
  cases (Ord.compare b.type.depth a.type.depth).then (TypeExpr.compare b.type a.type) <;> rfl

theorem mem_accepted {rs : List (Except Failure Pending)} {i : Pending} : i ∈ accepted rs ↔ .ok i ∈ rs := by
  rw [accepted, List.mem_mergeSort, List.mem_filterMap]
  constructor
  · rintro ⟨e | j, request, same⟩
    · cases same
    · exact Option.some.inj same ▸ request
  · exact fun request => ⟨_, request, rfl⟩

theorem pairwise_accepted (rs : List (Except Failure Pending)) :
    (accepted rs).Pairwise fun i j => comesBefore i j = true :=
  List.pairwise_mergeSort comesBefore_trans comesBefore_total _

/-- Shallower types come first. -/
theorem depth_le_of_comesBefore {i j : Pending} (le : comesBefore i j = true) : i.type.depth ≤ j.type.depth :=
  Nat.isLE_compare.mp (Ordering.isLE_then_iff_and.mp le).1

/-- Of two requests for different types that are sorted, the type of the first comes before that of the second. -/
theorem earlier_of_comesBefore {i j : Pending} (le : comesBefore i j = true) (apart : i.type ≠ j.type) :
    TypeExpr.Earlier i.type j.type := by
  unfold comesBefore at le
  unfold TypeExpr.Earlier
  cases order : (Ord.compare i.type.depth j.type.depth).then (TypeExpr.compare i.type j.type) with
  | lt => rfl
  | eq => exact absurd (TypeExpr.eq_of_compare (Ordering.then_eq_eq.mp order).2) apart
  | gt =>
    have impossible : Ordering.gt.isLE = true := order ▸ le
    cases impossible

end Registration

end ForeignBridge
