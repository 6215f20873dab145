import ForeignBridge.Proofs.Placements

/-! # Cycles of dependencies

A family is left over by the order of registration if its dependencies lead to a cycle, and only then. In the order every
family stands after its dependencies, so nothing that is placed leads to a cycle (`not_cyclic_of_mem_order`). A family
that is left over waits for another one, and since there are finitely many of them, following these ends in a cycle
(`exists_cycle`). -/

namespace ForeignBridge

/-- In a list in which every member leads to another one, each of them leads to a cycle. -/
theorem exists_cycle {α : Type} {r : α → α → Prop} {l : List α} (next : ∀ x ∈ l, ∃ y ∈ l, r x y) {x : α} (hx : x ∈ l) :
    ∃ c, Relation.ReflTransGen r x c ∧ Relation.TransGen r c c := by
  choose! next inside step using next
  have listed : ∀ n, next^[n] x ∈ l := fun n => by
    induction n with
    | zero => exact hx
    | succ n ih =>
      rw [Function.iterate_succ_apply']
      exact inside _ ih
  have path : ∀ m k, Relation.ReflTransGen r (next^[m] x) (next^[m + k] x) := fun m k => by
    induction k with
    | zero => exact .refl
    | succ k ih =>
      rw [← Nat.add_assoc, Function.iterate_succ_apply']
      exact ih.tail (step _ (listed _))
  -- the walk from `x` comes back to where it has been
  obtain ⟨m, n, earlier, same⟩ := (List.finite_toSet l).exists_lt_map_eq_of_forall_mem listed
  obtain ⟨k, rfl⟩ := Nat.exists_eq_add_of_lt earlier
  have around : Relation.TransGen r (next^[m] x) (next^[m + k + 1] x) := by
    rw [Function.iterate_succ_apply']
    exact .tail' (path m k) (step _ (listed _))
  rw [← same] at around
  exact ⟨next^[m] x, by simpa using path 0 m, around⟩

namespace Placement

/-- The family depends on another one: a template declares the first and requires the second, which is among the
templates too. -/
def DependsOn (templates : List Template) (family other : String) : Prop :=
  ∃ t ∈ templates, t.family = family ∧ other ∈ t.requires ∧ other ≠ family ∧ other ∈ templates.map Template.family

variable {templates : List Template}

theorem dependsOn_iff {family other : String} : DependsOn templates family other ↔
    ∃ t ∈ templates, t.family = family ∧ other ∈ inside templates t := by
  refine exists_congr fun t => and_congr_right fun _ => and_congr_right fun named => ?_
  rw [mem_inside, named]

theorem DependsOn.mem {family other : String} (depends : DependsOn templates family other) :
    family ∈ templates.map Template.family := by
  obtain ⟨t, listed, rfl, -⟩ := depends
  exact List.mem_map_of_mem listed

namespace Greedy

variable {order : List String}

/-- What a placed family depends on is placed before it. -/
theorem before_of_dependsOn (greedy : Greedy templates [] order) (distinct : (templates.map Template.family).Nodup)
    {front back : List String} {family other : String} (split : order = front ++ family :: back)
    (depends : DependsOn templates family other) : other ∈ front := by
  obtain ⟨t, listed, rfl, inside⟩ := dependsOn_iff.mp depends
  simpa using greedy.dependencies_before distinct listed split other inside

/-- So it has a smaller place. -/
theorem idxOf_lt (greedy : Greedy templates [] order) (distinct : (templates.map Template.family).Nodup)
    {family other : String} (placed : family ∈ order) (depends : DependsOn templates family other) :
    other ∈ order ∧ order.idxOf other < order.idxOf family := by
  obtain ⟨front, back, split⟩ := List.append_of_mem placed
  have earlier := greedy.before_of_dependsOn distinct split depends
  have new : family ∉ front := by
    have nodup := greedy.nodup List.nodup_nil
    rw [List.nil_append, split, List.nodup_append] at nodup
    exact fun old => nodup.2.2 family old family List.mem_cons_self rfl
  rw [split, List.idxOf_append_of_mem earlier, List.idxOf_append_of_notMem new, List.idxOf_cons_self]
  exact ⟨List.mem_append_left _ earlier, Nat.lt_add_right _ (List.idxOf_lt_length_of_mem earlier)⟩

/-- To prove something of every placed family, it may be assumed of those that it depends on. -/
theorem induction (greedy : Greedy templates [] order) (distinct : (templates.map Template.family).Nodup)
    {P : String → Prop} (step : ∀ family ∈ order, (∀ other, DependsOn templates family other → P other) → P family) :
    ∀ family ∈ order, P family := by
  intro family placed
  induction place : order.idxOf family using Nat.strong_induction_on generalizing family with
  | _ n ih =>
    subst place
    refine step family placed fun other depends => ?_
    obtain ⟨there, below⟩ := greedy.idxOf_lt distinct placed depends
    exact ih (order.idxOf other) below other there rfl

/-- Nothing that is placed leads to a cycle. -/
theorem not_cyclic_of_mem_order (greedy : Greedy templates [] order) (distinct : (templates.map Template.family).Nodup)
    {family c : String} (placed : family ∈ order) (leads : Relation.ReflTransGen (DependsOn templates) family c) :
    ¬ Relation.TransGen (DependsOn templates) c c := by
  have there : c ∈ order := by
    induction leads with
    | refl => exact placed
    | tail _ step ih => exact (greedy.idxOf_lt distinct ih step).1
  have descends : ∀ d, Relation.TransGen (DependsOn templates) c d → d ∈ order ∧ order.idxOf d < order.idxOf c := by
    intro d path
    induction path with
    | single step => exact greedy.idxOf_lt distinct there step
    | tail _ step ih =>
      obtain ⟨here, below⟩ := greedy.idxOf_lt distinct ih.1 step
      exact ⟨here, below.trans ih.2⟩
  exact fun cycle => lt_irrefl _ (descends c cycle).2

end Greedy

/-- A family is left over if its dependencies lead to a cycle, and only then. -/
theorem mem_cyclic_iff (distinct : (templates.map Template.family).Nodup) {family : String} :
    family ∈ (ofTemplates templates).cyclic ↔ ∃ c, Relation.ReflTransGen (DependsOn templates) family c ∧
      Relation.TransGen (DependsOn templates) c c := by
  have greedy := greedy_ofTemplates distinct
  constructor
  · refine exists_cycle fun x left => ?_
    obtain ⟨known, unplaced⟩ := (mem_cyclic distinct).mp left
    obtain ⟨t, listed, rfl⟩ := List.mem_map.mp known
    obtain ⟨d, depends, waiting⟩ := greedy.waits listed unplaced
    exact ⟨d, (mem_cyclic distinct).mpr ⟨(mem_inside.mp depends).2.2, waiting⟩,
      dependsOn_iff.mpr ⟨t, listed, rfl, depends⟩⟩
  · rintro ⟨c, leads, cycle⟩
    refine (mem_cyclic distinct).mpr ⟨?_, fun placed => greedy.not_cyclic_of_mem_order distinct placed leads cycle⟩
    obtain ⟨d, step, -⟩ := Relation.TransGen.head'_iff.mp (Relation.TransGen.trans_right leads cycle)
    exact step.mem

/-- The families in the order and those left over are all families, each once. -/
theorem perm_order_cyclic (distinct : (templates.map Template.family).Nodup) :
    ((ofTemplates templates).order ++ (ofTemplates templates).cyclic).Perm (templates.map Template.family) := by
  have greedy := greedy_ofTemplates distinct
  have order : (ofTemplates templates).order.Nodup := greedy.nodup List.nodup_nil
  have keys : (counts templates).keys.Nodup := (Keyed.ascends_ofList _).imp fun below => below.ne
  have cyclic : (ofTemplates templates).cyclic.Nodup := keys.filter _
  have apart : ∀ f ∈ (ofTemplates templates).order, ∀ g ∈ (ofTemplates templates).cyclic, f ≠ g :=
    fun f placed g left same => ((mem_cyclic distinct).mp left).2 (same ▸ placed)
  refine (List.perm_ext_iff_of_nodup (List.nodup_append.mpr ⟨order, cyclic, apart⟩) distinct).mpr fun f => ?_
  rw [List.mem_append, mem_cyclic distinct]
  by_cases placed : f ∈ (ofTemplates templates).order
  · simp [placed, greedy.subset placed]
  · simp [placed]

/-- **The order of registration is a topological sort, and reports exactly what leads to a cycle.** The queue is emptied
and no count falls below zero; every family is placed or left over, once; a placed family comes after all that it depends
on; and a family is left over exactly if following dependencies from it reaches a cycle. -/
theorem ofTemplates_sorts (distinct : (templates.map Template.family).Nodup) :
    Drains templates (start templates) (ofTemplates templates).order ∧
    ((ofTemplates templates).order ++ (ofTemplates templates).cyclic).Perm (templates.map Template.family) ∧
    (∀ front family back, (ofTemplates templates).order = front ++ family :: back →
      ∀ other, DependsOn templates family other → other ∈ front) ∧
    ∀ family, family ∈ (ofTemplates templates).cyclic ↔ ∃ c, Relation.ReflTransGen (DependsOn templates) family c ∧
      Relation.TransGen (DependsOn templates) c c :=
  ⟨drains_ofTemplates distinct, perm_order_cyclic distinct,
    fun _ _ _ split _ depends => (greedy_ofTemplates distinct).before_of_dependsOn distinct split depends,
    fun _ => mem_cyclic_iff distinct⟩

/-- Two families that require each other, one behind them, and one by itself. -/
def twoInACycle : List Template :=
  [.scalar "Base" "base", (Template.generic "A" "a" 1).requiring ["B", "Base"],
    (Template.generic "B" "b" 1).requiring ["A", "A", "B"], (Template.generic "C" "c" 1).requiring ["A", "Elsewhere"]]

/-- `C` is left over, so following its dependencies reaches a cycle. -/
theorem ofTemplates_sorts_twoInACycle : (twoInACycle.map Template.family).Nodup ∧
    ofTemplates twoInACycle = ⟨["Base"], ["A", "B", "C"]⟩ ∧
    (["Base"] ++ ["A", "B", "C"]).Perm (twoInACycle.map Template.family) ∧
    ∃ c, Relation.ReflTransGen (DependsOn twoInACycle) "C" c ∧ Relation.TransGen (DependsOn twoInACycle) c c := by
  have distinct : (twoInACycle.map Template.family).Nodup := by decide
  have placement : ofTemplates twoInACycle = ⟨["Base"], ["A", "B", "C"]⟩ := by decide +kernel
  obtain ⟨-, perm, -, left⟩ := ofTemplates_sorts distinct
  rw [placement] at perm left
  exact ⟨distinct, placement, perm, (left "C").mp (by decide)⟩

end Placement

end ForeignBridge
