import ForeignBridge.Proofs.RootCounts

/-! # What releasing cells does to roots

The cells of reclaimed objects are released one after the other. The order makes no difference (`releaseAll_perm`), and
a slot loses one root for each cell that goes and is bound to it, as far as it has roots (`rootCount_releaseAll`). A cell
goes if it is released as often as it is held.

Both rest on one equation: a release changes the cell, whatever the store, and then gives back a root that the cell alone
determines (`release_eq`). -/

namespace ForeignBridge

namespace Store

variable {s : Store} {c d : CellId} {h k : Handle}

/-! ### One release -/

/-- What is left of a cell when a holder releases it. -/
def dropHolder (cell : Option Cell) : Option Cell :=
  cell.bind fun cell => if 1 < cell.holders then some { cell with holders := cell.holders - 1 } else none

/-- The handle whose root goes with a cell when a holder releases it; null if none does. -/
def givenBack (cell : Option Cell) : Handle :=
  (cell.bind fun cell => if 1 < cell.holders then none else cell.binding).getD Handle.null

theorem unroot_null (s : Store) : s.unroot Handle.null = s := rfl

theorem release_eq (s : Store) (c : CellId) :
    s.release c = (s.changeCell c dropHolder).unroot (givenBack (s.cell? c)) := by
  cases hc : s.cell? c with
  | none =>
    rw [release, hc, changeCell_of_none s c _ hc rfl]
    rfl
  | some cell =>
    -- a change of a cell that is there is a change of its content
    have change (g : Option Cell → Option Cell) (same : g (some cell) = dropHolder (some cell)) :
        s.changeCell c g = s.changeCell c dropHolder := by
      have there := hc
      rw [cell?, Option.join_eq_some_iff] at there
      rw [changeCell, changeCell]
      congr 1
      apply Array.ext_getElem?
      intro i
      rw [Array.getElem?_modify, Array.getElem?_modify]
      split
      · next e => rw [← e, there, Option.map_some, Option.map_some, same]
      · rfl
    by_cases many : 1 < cell.holders
    · rw [release_of_many hc many, change _ (by simp [dropHolder, many])]
      simp [givenBack, many, unroot_null]
    · rw [release_of_last hc many, change _ (by simp [dropHolder, many])]
      simp [givenBack, many]

theorem cell?_release (s : Store) (c d : CellId) :
    (s.release c).cell? d = if d = c then dropHolder (s.cell? c) else s.cell? d := by
  rw [release_eq, cell?_congr (cells_unroot _ _), cell?_changeCell _ _ _ _ rfl]

theorem slot?_release (s : Store) (c : CellId) (h : Handle) :
    (s.release c).slot? h = (s.unroot (givenBack (s.cell? c))).slot? h := by
  rw [release_eq, unroot, slot?_updateSlot, unroot, slot?_updateSlot]
  rfl

theorem rootCount_unroot (s : Store) (h k : Handle) :
    (s.unroot k).rootCount h = s.rootCount h - if h = k then 1 else 0 := by
  rw [rootCount, rootCount, unroot, slot?_updateSlot]
  split
  · next same =>
    subst same
    cases s.slot? h <;> rfl
  · rfl

theorem rootCount_release (s : Store) (c : CellId) (h : Handle) :
    (s.release c).rootCount h = s.rootCount h - if h = givenBack (s.cell? c) then 1 else 0 := by
  rw [rootCount, slot?_release, ← rootCount, rootCount_unroot]

theorem ne_null (there : h.isNull = false) : h ≠ Handle.null := fun e => by simp [e, Handle.null, Handle.isNull] at there

/-- A root goes together with the cell that it belongs to. -/
theorem boundCount_release (there : h.isNull = false) :
    (s.release c).boundCount h + (if h = givenBack (s.cell? c) then 1 else 0) = s.boundCount h := by
  rw [release_eq, boundCount_unroot]
  cases hc : s.cell? c with
  | none => simp [changeCell_of_none s c dropHolder hc rfl, givenBack, ne_null there]
  | some cell =>
    have step := boundCount_changeCell h dropHolder hc
    by_cases many : 1 < cell.holders
    · simpa [dropHolder, givenBack, many, ne_null there, bindsTo_some] using step
    · have one : bindsTo h (some cell) = if h = cell.binding.getD Handle.null then 1 else 0 := by
        rw [bindsTo_some]
        congr 1
        cases cell.binding with
        | none => simp [ne_null there]
        | some k => simp [eq_comm]
      rw [one] at step
      simpa [dropHolder, givenBack, many, bindsTo] using step

/-! ### The order of releases -/

theorem modify_comm {α : Type} (xs : Array α) (f : α → α) (i j : ℕ) :
    (xs.modify i f).modify j f = (xs.modify j f).modify i f := by
  by_cases same : i = j
  · rw [same]
  · apply Array.ext_getElem?
    intro n
    simp only [Array.getElem?_modify]
    by_cases hi : i = n <;> by_cases hj : j = n <;> simp_all

theorem changeCell_comm (s : Store) (c d : CellId) (g : Option Cell → Option Cell) :
    (s.changeCell c g).changeCell d g = (s.changeCell d g).changeCell c g := by
  simp only [changeCell, modify_comm s.cells g c.index]

theorem unroot_comm (s : Store) (h k : Handle) : (s.unroot h).unroot k = (s.unroot k).unroot h := by
  unfold unroot updateSlot
  split <;> split <;> try rfl
  simp only [modify_comm s.slots _ (h.raw - 1)]

theorem changeCell_unroot (s : Store) (c : CellId) (g : Option Cell → Option Cell) (h : Handle) :
    (s.unroot h).changeCell c g = (s.changeCell c g).unroot h := by
  unfold unroot updateSlot
  split <;> rfl

theorem release_comm (s : Store) (c d : CellId) : (s.release c).release d = (s.release d).release c := by
  by_cases same : c = d
  · rw [same]
  · rw [release_eq (s.release c) d, release_eq (s.release d) c, cell?_release, cell?_release, if_neg (Ne.symm same),
      if_neg same, release_eq s c, release_eq s d, changeCell_unroot, changeCell_unroot, changeCell_comm, unroot_comm]

theorem releaseAll_perm {cs ds : List CellId} (perm : cs.Perm ds) (s : Store) : s.releaseAll cs = s.releaseAll ds :=
  perm.foldl_eq' (fun c _ d _ s => release_comm s c d) s

/-! ### The roots that go -/

/-- The cells that go when a list of cells is released: those that are released as often as they are held. -/
def goners (s : Store) (cs : List CellId) : Multiset CellId :=
  (cs : Multiset CellId).filter fun c => s.holderCount c ≤ cs.count c

/-- The cells that go and are bound to a handle. -/
def gonersOf (s : Store) (cs : List CellId) (h : Handle) : Finset CellId :=
  (s.goners cs).toFinset.filter fun c => s.binding? c = some h

theorem mem_gonersOf {cs : List CellId} :
    d ∈ s.gonersOf cs h ↔ d ∈ cs ∧ s.holderCount d ≤ cs.count d ∧ s.binding? d = some h := by
  simp [gonersOf, goners, and_assoc]

theorem mem_gonersOf_cons_of_ne {cs : List CellId} (apart : d ≠ c) :
    d ∈ s.gonersOf (c :: cs) h ↔ d ∈ (s.release c).gonersOf cs h := by
  have same : (s.release c).cell? d = s.cell? d := by rw [cell?_release, if_neg apart]
  simp [mem_gonersOf, apart, holderCount, binding?, same, List.count_cons_of_ne (Ne.symm apart)]

/-- The first of the cells goes now, or it is one of those that go later, or it does not go at all. -/
theorem mem_gonersOf_cons_self {cs : List CellId} (there : h.isNull = false) :
    c ∈ s.gonersOf (c :: cs) h ↔ h = givenBack (s.cell? c) ∨ c ∈ (s.release c).gonersOf cs h := by
  have left : (s.release c).cell? c = dropHolder (s.cell? c) := by rw [cell?_release, if_pos rfl]
  have distinct := ne_null there
  cases hc : s.cell? c with
  | none => simp [mem_gonersOf, binding?, left, hc, givenBack, dropHolder, distinct]
  | some cell =>
    by_cases many : 1 < cell.holders
    · have listed : cell.holders ≤ cs.count c + 1 → c ∈ cs := by
        intro often
        apply List.count_pos_iff.mp
        omega
      simpa [mem_gonersOf, binding?, holderCount, left, hc, givenBack, dropHolder, distinct, many] using
        fun often _ => listed often
    · have counted : cell.holders ≤ cs.count c + 1 := by omega
      have bound : h = cell.binding.getD Handle.null ↔ cell.binding = some h := by
        cases cell.binding with
        | none => simp [distinct]
        | some k => simp [eq_comm]
      simp [mem_gonersOf, binding?, holderCount, left, hc, givenBack, dropHolder, many, counted, bound]

theorem not_mem_gonersOf_of_givenBack {cs : List CellId} (there : h.isNull = false)
    (gone : h = givenBack (s.cell? c)) : c ∉ (s.release c).gonersOf cs h := by
  rw [mem_gonersOf, binding?, cell?_release, if_pos rfl]
  rintro ⟨_, _, bound⟩
  cases hc : s.cell? c with
  | none => simp [hc, dropHolder] at bound
  | some cell =>
    by_cases many : 1 < cell.holders
    · exact absurd gone (by simp [hc, givenBack, many, ne_null there])
    · simp [hc, dropHolder, many] at bound

theorem card_gonersOf_cons {cs : List CellId} (there : h.isNull = false) : (s.gonersOf (c :: cs) h).card =
    (if h = givenBack (s.cell? c) then 1 else 0) + ((s.release c).gonersOf cs h).card := by
  split
  · next gone =>
    have whole : s.gonersOf (c :: cs) h = insert c ((s.release c).gonersOf cs h) := by
      ext d
      by_cases same : d = c
      · subst same
        exact iff_of_true ((mem_gonersOf_cons_self there).mpr (.inl gone)) (Finset.mem_insert_self d _)
      · rw [mem_gonersOf_cons_of_ne same, Finset.mem_insert]
        exact (or_iff_right same).symm
    rw [whole, Finset.card_insert_of_notMem (not_mem_gonersOf_of_givenBack there gone), add_comm]
  · next stays =>
    have whole : s.gonersOf (c :: cs) h = (s.release c).gonersOf cs h := by
      ext d
      by_cases same : d = c
      · subst same
        exact (mem_gonersOf_cons_self there).trans (or_iff_right stays)
      · exact mem_gonersOf_cons_of_ne same
    rw [whole, zero_add]

/-- **A slot loses one root for each cell that goes and is bound to it**, as far as it has roots. -/
theorem rootCount_releaseAll (cs : List CellId) (h : Handle) : ∀ s : Store,
    (s.releaseAll cs).rootCount h = s.rootCount h - s.heldCount (s.goners cs) h := by
  by_cases there : h.isNull = false
  · induction cs with
    | nil => exact fun s => rfl
    | cons c cs ih =>
      intro s
      have rest := ih (s.release c)
      have count : s.heldCount (s.goners (c :: cs)) h = _ := card_gonersOf_cons there
      rw [rootCount_release] at rest
      rw [count, ← Nat.sub_sub]
      exact rest
  · obtain rfl := Handle.isNull_iff.mp (by simpa using there)
    exact fun s => (Nat.zero_sub _).symm

end Store

end ForeignBridge
