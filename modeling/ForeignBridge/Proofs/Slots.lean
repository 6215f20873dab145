import Mathlib
import ForeignBridge.Store.Family
import ForeignBridge.Store.Namespace

/-! # What the elementary operations change

A store is observed through its slots, its cells, the cells that its slots hold (`boxed`) and the number of cells that
are bound to a handle (`boundCount`). Each elementary operation comes with one equation for each observation that it
changes; later proofs use these equations and do not open the arrays again.

An operation that changes one position of an array changes a sum over the array by the difference at that position
(`sum_map_modify`); both counts are such sums. -/

namespace ForeignBridge

/-- The sum over a list in which the member at `i` is changed. -/
theorem sum_map_modify {α β : Type} [AddCommMonoid β] (g : α → β) (f : α → α) :
    ∀ (l : List α) (i : ℕ) (x : α), l[i]? = some x →
      ((l.modify i f).map g).sum + g x = (l.map g).sum + g (f x)
  | [], i, x, h => by simp at h
  | y :: l, 0, x, h => by
      obtain rfl : y = x := by simpa using h
      simp only [List.modify_zero_cons, List.map_cons, List.sum_cons]
      abel
  | y :: l, i + 1, x, h => by
      have rest := sum_map_modify g f l i x (by simpa using h)
      simp only [List.modify_succ_cons, List.map_cons, List.sum_cons, add_assoc, rest]

namespace Handle

theorem isNull_iff {h : Handle} : h.isNull = true ↔ h = null := by
  cases h
  simp [isNull, null]

theorem eq_of_pred_eq {h k : Handle} (hh : h.isNull = false) (hk : k.isNull = false)
    (e : h.raw - 1 = k.raw - 1) : h = k := by
  obtain ⟨m⟩ := h
  obtain ⟨n⟩ := k
  simp only [isNull, beq_eq_false_iff_ne] at hh hk e
  congr 1
  omega

end Handle

namespace Object

/-- A family or an applied type, which is entered in a table. -/
def isTypeEntry : Object → Bool
  | .family _ => true
  | .type _ _ => true
  | _ => false

/-- The table of families with the object entered, if it is one. -/
def enterFamily (h : Handle) (families : Keyed Handle) : Object → Keyed Handle
  | .family name => families.insert name h
  | _ => families

/-- The table of applied types with the object entered, if it is one. -/
def enterApplied (h : Handle) (applied : Assoc (Handle × List Handle) Handle) :
    Object → Assoc (Handle × List Handle) Handle
  | .type head params => applied.insert (head, params) h
  | _ => applied

end Object

namespace Store

/-! ### Observations -/

/-- `h` is null or was handed out. -/
def Issued (s : Store) (h : Handle) : Prop := h.raw ≤ s.lastId

/-- The handle of a held cell that is bound. -/
def binding? (s : Store) (c : CellId) : Option Handle := (s.cell? c).bind Cell.binding

/-- How many holders a cell has; none if it is not held. -/
def holderCount (s : Store) (c : CellId) : ℕ := ((s.cell? c).map Cell.holders).getD 0

/-- The cells that the object of a slot holds. -/
def slotCells (slot : Option Slot) : Multiset CellId := (slot.map fun x => (x.object.cells : Multiset CellId)).getD 0

/-- The cells that the objects in the slots hold, as often as they hold them. -/
def boxed (s : Store) : Multiset CellId := (s.slots.toList.map slotCells).sum

/-- One for a held cell that is bound to `h`. -/
def bindsTo (h : Handle) (cell : Option Cell) : ℕ := if cell.bind Cell.binding = some h then 1 else 0

/-- How many held cells are bound to `h`. -/
def boundCount (s : Store) (h : Handle) : ℕ := (s.cells.toList.map (bindsTo h)).sum

theorem slot?_null (s : Store) : s.slot? Handle.null = none := rfl

theorem slot?_of_not_null {s : Store} {h : Handle} (hh : h.isNull = false) :
    s.slot? h = (s.slots[h.raw - 1]?).join := by
  simp [slot?, hh]

theorem issued_null (s : Store) : s.Issued Handle.null := Nat.zero_le _

theorem issued_of_slot? {s : Store} {h : Handle} {slot : Slot} (hs : s.slot? h = some slot) : s.Issued h := by
  unfold slot? at hs
  split at hs
  · exact absurd hs (by simp)
  · rename_i hn
    obtain ⟨hlt, _⟩ := Array.getElem?_eq_some_iff.mp (Option.join_eq_some_iff.mp hs)
    simp only [Handle.isNull, beq_iff_eq] at hn
    have := s.bounded
    unfold Issued
    omega

theorem object?_eq_some {s : Store} {h : Handle} {o : Object} :
    s.object? h = some o ↔ ∃ slot, s.slot? h = some slot ∧ slot.object = o := by
  simp [object?, Option.map_eq_some_iff]

theorem slot?_of_not_issued {s : Store} {h : Handle} (unknown : ¬ s.Issued h) : s.slot? h = none := by
  cases hs : s.slot? h with
  | none => rfl
  | some slot => exact absurd (issued_of_slot? hs) unknown

theorem object?_of_not_issued {s : Store} {h : Handle} (unknown : ¬ s.Issued h) : s.object? h = none := by
  rw [object?, slot?_of_not_issued unknown]
  rfl

theorem issued_of_object? {s : Store} {h : Handle} {o : Object} (ho : s.object? h = some o) : s.Issued h := by
  obtain ⟨slot, hs, _⟩ := object?_eq_some.mp ho
  exact issued_of_slot? hs

theorem isLive_iff {s : Store} {h : Handle} : s.isLive h = true ↔ ∃ slot, s.slot? h = some slot := by
  simp [isLive, Option.isSome_iff_exists]

theorem isLive_of_object? {s : Store} {h : Handle} {o : Object} (ho : s.object? h = some o) : s.isLive h = true := by
  obtain ⟨slot, hs, _⟩ := object?_eq_some.mp ho
  exact isLive_iff.mpr ⟨slot, hs⟩

theorem rootCount_of_slot? {s : Store} {h : Handle} {slot : Slot} (hs : s.slot? h = some slot) :
    s.rootCount h = slot.roots := by
  simp [rootCount, hs]

theorem read_of_binding? {s : Store} {c : CellId} {h : Handle} (hb : s.binding? c = some h) : s.read c = h := by
  unfold binding? at hb
  simp [read, hb]

theorem read_of_binding?_none {s : Store} {c : CellId} (hb : s.binding? c = none) : s.read c = Handle.null := by
  unfold binding? at hb
  simp [read, hb]

theorem read_congr {s t : Store} {c d : CellId} (same : t.binding? c = s.binding? d) : t.read c = s.read d := by
  unfold binding? at same
  rw [read, read, same]

theorem binding?_of_cell? {s : Store} {c : CellId} {cell : Cell} (hc : s.cell? c = some cell) :
    s.binding? c = cell.binding := by
  simp [binding?, hc]

theorem cell?_of_binding? {s : Store} {c : CellId} {h : Handle} (hb : s.binding? c = some h) :
    ∃ cell, s.cell? c = some cell ∧ cell.binding = some h := Option.bind_eq_some_iff.mp hb

theorem lt_of_cell? {s : Store} {c : CellId} {cell : Cell} (hc : s.cell? c = some cell) : c.index < s.cells.size :=
  (Array.getElem?_eq_some_iff.mp (Option.join_eq_some_iff.mp hc)).1

theorem holderCount_of_cell? {s : Store} {c : CellId} {cell : Cell} (hc : s.cell? c = some cell) :
    s.holderCount c = cell.holders := by
  simp [holderCount, hc]

theorem mem_boxed_of_slot? {s : Store} {h : Handle} {slot : Slot} {c : CellId} (hs : s.slot? h = some slot)
    (hc : c ∈ slot.object.cells) : c ∈ s.boxed := by
  have hn : h.isNull = false := by
    by_contra hn
    simp [slot?, hn] at hs
  rw [slot?_of_not_null hn, Option.join_eq_some_iff, ← Array.getElem?_toList] at hs
  obtain ⟨l, r, e⟩ := List.append_of_mem (List.mem_of_getElem? hs)
  simp [boxed, e, slotCells, hc]

theorem boundCount_pos {s : Store} {c : CellId} {h : Handle} (hb : s.binding? c = some h) : 0 < s.boundCount h := by
  obtain ⟨cell, hc, hh⟩ := cell?_of_binding? hb
  have hm : some cell ∈ s.cells.toList := by
    rw [cell?, Option.join_eq_some_iff, ← Array.getElem?_toList] at hc
    exact List.mem_of_getElem? hc
  unfold boundCount
  apply Nat.pos_of_ne_zero
  rw [Ne, List.sum_eq_zero_iff]
  intro zero
  have := zero _ (List.mem_map_of_mem hm)
  simp [bindsTo, hh] at this

theorem boundCount_eq_zero {s : Store} {h : Handle} (none : ∀ c, s.binding? c ≠ some h) : s.boundCount h = 0 := by
  unfold boundCount
  rw [List.sum_eq_zero_iff]
  intro n hn
  obtain ⟨cell, hc, rfl⟩ := List.mem_map.mp hn
  obtain ⟨i, hi⟩ := List.mem_iff_getElem?.mp hc
  have unbound := none ⟨i⟩
  rw [binding?, cell?, ← Array.getElem?_toList, hi, Option.join_some] at unbound
  simp [bindsTo, unbound]

/-! ### Slots -/

section slots

variable (s : Store) (h k : Handle) (f : Slot → Slot)

/-- What does not depend on the slots is the same after one is changed. -/
theorem apply_updateSlot {α : Sort*} (view : Store → α)
    (blind : ∀ s slots bounded, view { s with slots, bounded } = view s) : view (s.updateSlot h f) = view s := by
  unfold updateSlot
  split
  · rfl
  · exact blind s _ _

@[simp] theorem cells_updateSlot : (s.updateSlot h f).cells = s.cells :=
  apply_updateSlot s h f Store.cells fun _ _ _ => rfl

@[simp] theorem lastId_updateSlot : (s.updateSlot h f).lastId = s.lastId :=
  apply_updateSlot s h f Store.lastId fun _ _ _ => rfl

@[simp] theorem families_updateSlot : (s.updateSlot h f).families = s.families :=
  apply_updateSlot s h f Store.families fun _ _ _ => rfl

@[simp] theorem applied_updateSlot : (s.updateSlot h f).applied = s.applied :=
  apply_updateSlot s h f Store.applied fun _ _ _ => rfl

@[simp] theorem cell?_updateSlot (c : CellId) : (s.updateSlot h f).cell? c = s.cell? c := by
  simp [cell?]

/-- Only the slot of `h` is changed. -/
theorem slot?_updateSlot : (s.updateSlot h f).slot? k = if k = h then (s.slot? h).map f else s.slot? k := by
  by_cases hn : h.isNull
  · rw [updateSlot, if_pos hn]
    split
    · next e => rw [e, Handle.isNull_iff.mp hn, slot?_null]; rfl
    · rfl
  · rw [updateSlot, if_neg hn]
    simp only [Bool.not_eq_true] at hn
    by_cases kn : k.isNull
    · have : k ≠ h := fun e => by rw [e, hn] at kn; exact absurd kn (by simp)
      rw [if_neg this, Handle.isNull_iff.mp kn, slot?_null, slot?_null]
    · simp only [Bool.not_eq_true] at kn
      rw [slot?_of_not_null kn, slot?_of_not_null kn, slot?_of_not_null hn, Array.getElem?_modify]
      by_cases e : k = h
      · subst e
        rw [if_pos rfl, if_pos rfl]
        cases s.slots[k.raw - 1]? with
        | none => rfl
        | some slot => rfl
      · rw [if_neg e, if_neg fun e' => e (Handle.eq_of_pred_eq kn hn e'.symm)]

theorem isLive_updateSlot : (s.updateSlot h f).isLive k = s.isLive k := by
  simp only [isLive, slot?_updateSlot]
  split
  · next e => simp [e]
  · rfl

theorem boxed_updateSlot (same : ∀ slot, s.slot? h = some slot → (f slot).object.cells = slot.object.cells) :
    (s.updateSlot h f).boxed = s.boxed := by
  by_cases hn : h.isNull
  · rw [updateSlot, if_pos hn]
  · rw [updateSlot, if_neg hn]
    simp only [Bool.not_eq_true] at hn
    unfold boxed
    simp only [Array.toList_modify]
    cases hx : s.slots.toList[h.raw - 1]? with
    | none => rw [List.modify_eq_self (by simpa using hx)]
    | some slot =>
      have step := sum_map_modify slotCells (Option.map f) _ _ _ hx
      have eq : slotCells (slot.map f) = slotCells slot := by
        cases slot with
        | none => rfl
        | some slot =>
          have hs : s.slot? h = some slot := by
            rw [slot?_of_not_null hn, ← Array.getElem?_toList, hx, Option.join_some]
          simp [slotCells, same slot hs]
      rw [eq] at step
      exact add_right_cancel step

theorem slot?_congr {s t : Store} (e : s.slots = t.slots) (h : Handle) : s.slot? h = t.slot? h := by
  rw [slot?, slot?, e]

/-- The store with one more slot, without roots. A family or an applied type is entered in its table. -/
def pushSlot (object : Object) (s : Store) : Store :=
  { s with
    slots := (s.slots.rightpad s.lastId none).push (some ⟨object, 0⟩)
    lastId := s.lastId + 1
    families := object.enterFamily s.nextHandle s.families
    applied := object.enterApplied s.nextHandle s.applied
    bounded := by
      have := s.bounded
      simp
      omega }

/-- The places between the last slot and the next one are empty. -/
theorem join_getElem?_rightpad {α : Type} (slots : Array (Option α)) (n i : ℕ) :
    ((slots.rightpad n none)[i]?).join = (slots[i]?).join := by
  rw [Array.rightpad, Array.getElem?_append]
  split
  · rfl
  · next outside =>
    rw [Array.getElem?_eq_none (not_lt.mp outside), Array.getElem?_replicate]
    split <;> rfl

theorem slot?_pushSlot (object : Object) :
    (s.pushSlot object).slot? k = if k = s.nextHandle then some ⟨object, 0⟩ else s.slot? k := by
  by_cases kn : k.isNull
  · have : k ≠ s.nextHandle := by
      rw [Handle.isNull_iff.mp kn]
      simp [Handle.null, nextHandle]
    rw [if_neg this, Handle.isNull_iff.mp kn, slot?_null, slot?_null]
  · simp only [Bool.not_eq_true] at kn
    have size : (s.slots.rightpad s.lastId none).size = s.lastId := by
      rw [Array.size_rightpad, Nat.max_eq_left s.bounded]
    have : k.raw - 1 = s.lastId ↔ k = s.nextHandle := by
      obtain ⟨n⟩ := k
      simp only [Handle.isNull, beq_eq_false_iff_ne, nextHandle, Handle.mk.injEq] at kn ⊢
      omega
    rw [slot?_of_not_null kn, slot?_of_not_null kn, pushSlot, Array.getElem?_push, size]
    simp only [this]
    split
    · rfl
    · exact join_getElem?_rightpad s.slots s.lastId _

theorem boxed_pushSlot (object : Object) : (s.pushSlot object).boxed = s.boxed + object.cells := by
  simp [boxed, pushSlot, slotCells, Array.rightpad]

end slots

/-! ### Cells -/

section cells

variable (s : Store) (c d : CellId) (h : Handle) (g : Option Cell → Option Cell)

theorem cell?_congr {s t : Store} (e : s.cells = t.cells) (c : CellId) : s.cell? c = t.cell? c := by
  rw [cell?, cell?, e]

theorem boundCount_congr {s t : Store} (e : s.cells = t.cells) (h : Handle) : s.boundCount h = t.boundCount h := by
  rw [boundCount, boundCount, e]

@[simp] theorem cells_root : (s.root h).cells = s.cells := cells_updateSlot s h _
@[simp] theorem cells_unroot : (s.unroot h).cells = s.cells := cells_updateSlot s h _
@[simp] theorem cells_setMember (name : String) (value : Handle) : (s.setMember h name value).cells = s.cells :=
  cells_updateSlot s h _

@[simp] theorem boundCount_root (k : Handle) : (s.root h).boundCount k = s.boundCount k :=
  boundCount_congr (cells_root s h) k
@[simp] theorem boundCount_unroot (k : Handle) : (s.unroot h).boundCount k = s.boundCount k :=
  boundCount_congr (cells_unroot s h) k
@[simp] theorem boundCount_setMember (name : String) (value k : Handle) :
    (s.setMember h name value).boundCount k = s.boundCount k :=
  boundCount_congr (cells_setMember s h name value) k

/-- The store with one cell changed. -/
def changeCell : Store := { s with cells := s.cells.modify c.index g }

theorem updateCell_eq (f : Cell → Cell) : s.updateCell c f = s.changeCell c (Option.map f) := rfl

theorem cell?_changeCell (missing : g none = none) :
    (s.changeCell c g).cell? d = if d = c then g (s.cell? c) else s.cell? d := by
  rw [cell?, cell?, cell?, changeCell, Array.getElem?_modify]
  by_cases e : d = c
  · subst e
    rw [if_pos rfl, if_pos rfl]
    cases s.cells[d.index]? with
    | none => simp [missing]
    | some cell => rfl
  · have : c.index ≠ d.index := fun e' => e (by cases c; cases d; simp_all)
    rw [if_neg this, if_neg e]

/-- The number of bound cells changes with the cell. -/
theorem boundCount_changeCell {s : Store} {c : CellId} {cell : Cell} (hc : s.cell? c = some cell) :
    (s.changeCell c g).boundCount h + bindsTo h (some cell) = s.boundCount h + bindsTo h (g (some cell)) := by
  unfold boundCount changeCell
  rw [Array.toList_modify]
  apply sum_map_modify
  rw [cell?, Option.join_eq_some_iff] at hc
  rwa [Array.getElem?_toList]

theorem changeCell_of_none (hc : s.cell? c = none) (missing : g none = none) : s.changeCell c g = s := by
  have same : s.cells.modify c.index g = s.cells := by
    apply Array.ext_getElem?
    intro i
    rw [Array.getElem?_modify]
    split
    · next e =>
      subst e
      rw [cell?] at hc
      cases hx : s.cells[c.index]? with
      | none => rfl
      | some cell =>
        rw [hx, Option.join_some] at hc
        rw [hc, Option.map_some, missing]
    · rfl
  rw [changeCell, same]

/-- The store with one more cell. -/
def pushCell (cell : Cell) (s : Store) : Store := { s with cells := s.cells.push (some cell) }

/-- The number of the next new cell. -/
def nextCell (s : Store) : CellId := ⟨s.cells.size⟩

theorem cell?_pushCell (cell : Cell) :
    (s.pushCell cell).cell? d = if d = s.nextCell then some cell else s.cell? d := by
  rw [cell?, cell?, pushCell, Array.getElem?_push]
  have : d.index = s.cells.size ↔ d = s.nextCell := by
    cases d
    simp [nextCell]
  simp only [this]
  split <;> rfl

theorem cell?_nextCell : s.cell? s.nextCell = none := by
  simp [cell?, nextCell]

theorem boundCount_pushCell (cell : Cell) :
    (s.pushCell cell).boundCount h = s.boundCount h + bindsTo h (some cell) := by
  simp [boundCount, pushCell]

/-! ### Operations in terms of these changes -/

theorem root_null : s.root Handle.null = s := rfl

theorem hold_eq : s.hold h = (s.nextCell, (s.root h).pushCell ⟨some h, 1⟩) := by
  by_cases hn : h.isNull
  · rw [Handle.isNull_iff.mp hn]
    rfl
  · simp only [hold, hn, root, Bool.false_eq_true, if_false, pushCell, cells_updateSlot, nextCell]

theorem nextCell_root : (s.root h).nextCell = s.nextCell := by rw [nextCell, nextCell, cells_root]

theorem cell?_hold : (s.hold h).2.cell? d = if d = s.nextCell then some ⟨some h, 1⟩ else s.cell? d := by
  rw [hold_eq]
  show ((s.root h).pushCell ⟨some h, 1⟩).cell? d = _
  rw [cell?_pushCell, nextCell_root, cell?_congr (cells_root s h)]

theorem newCell_eq : s.newCell = (s.nextCell, s.pushCell ⟨none, 1⟩) := rfl

theorem bind_eq_ok {s t : Store} {c : CellId} {h : Handle} :
    s.bind c h = .ok t ↔
      s.binding? c = none ∧ t = (s.root h).changeCell c (Option.map fun cell => { cell with binding := some h }) := by
  have roots : (if h.isNull then s else s.root h) = s.root h := by
    split
    · next hn => rw [Handle.isNull_iff.mp hn, root_null]
    · rfl
  unfold bind binding?
  cases (s.cell? c).bind Cell.binding with
  | some existing => simp
  | none =>
    simp only [roots, updateCell_eq, Except.ok.injEq, true_and]
    exact eq_comm

theorem bind_eq_error {s : Store} {c : CellId} {h existing : Handle} :
    s.bind c h = .error existing ↔ s.binding? c = some existing := by
  unfold bind binding?
  cases (s.cell? c).bind Cell.binding <;> simp

theorem retain_eq :
    s.retain c = s.changeCell c (Option.map fun cell => { cell with holders := cell.holders + 1 }) := rfl

theorem release_of_many {s : Store} {c : CellId} {cell : Cell} (hc : s.cell? c = some cell) (many : 1 < cell.holders) :
    s.release c = s.changeCell c (Option.map fun cell => { cell with holders := cell.holders - 1 }) := by
  simp [release, hc, many, updateCell_eq]

/-- The last holder takes the cell along, and its root. -/
theorem release_of_last {s : Store} {c : CellId} {cell : Cell} (hc : s.cell? c = some cell)
    (last : ¬ 1 < cell.holders) :
    s.release c = (s.changeCell c fun _ => none).unroot (cell.binding.getD Handle.null) := by
  rw [release, hc]
  simp only [last, if_false]
  cases cell.binding with
  | none => rfl
  | some h => rfl

/-- What depends neither on cells nor on roots is the same after a release. -/
theorem apply_release {α : Sort*} (view : Store → α) (changeCell : ∀ s c g, view (s.changeCell c g) = view s)
    (unroot : ∀ s h, view (s.unroot h) = view s) (s : Store) (c : CellId) : view (s.release c) = view s := by
  cases hc : s.cell? c with
  | none => simp only [release, hc]
  | some cell =>
    by_cases many : 1 < cell.holders
    · rw [release_of_many hc many, changeCell]
    · rw [release_of_last hc many, unroot, changeCell]

theorem apply_releaseAll {α : Sort*} (view : Store → α) (release : ∀ s c, view (s.release c) = view s)
    (cs : List CellId) : ∀ s, view (s.releaseAll cs) = view s := by
  induction cs with
  | nil => exact fun s => rfl
  | cons c cs ih => exact fun s => (ih (s.release c)).trans (release s c)

theorem apply_retainAll {α : Sort*} (view : Store → α) (retain : ∀ s c, view (s.retain c) = view s)
    (cs : List CellId) : ∀ s, view (s.retainAll cs) = view s := by
  induction cs with
  | nil => exact fun s => rfl
  | cons c cs ih => exact fun s => (ih (s.retain c)).trans (retain s c)

/-- What each step keeps is the same after all of them. -/
theorem apply_foldl {α β γ : Type} (view : Store → γ) {step : α × Store → β → α × Store}
    (keeps : ∀ p b, view (step p b).2 = view p.2) (bs : List β) :
    ∀ p : α × Store, view (bs.foldl step p).2 = view p.2 := by
  induction bs with
  | nil => exact fun _ => rfl
  | cons b bs ih => exact fun p => (ih (step p b)).trans (keeps p b)

theorem lastId_retainAll (cs : List CellId) (s : Store) : (s.retainAll cs).lastId = s.lastId :=
  apply_retainAll Store.lastId (fun _ _ => rfl) cs s

/-- A new slot, unless what is in it has to be entered in a table. -/
theorem allocate_eq (object : Object) (plain : object.isTypeEntry = false) :
    s.allocate object = (s.nextHandle, (s.retainAll object.cells).pushSlot object) := by
  have next : (s.retainAll object.cells).nextHandle = s.nextHandle := by
    rw [nextHandle, nextHandle, lastId_retainAll]
  rw [allocate, next]
  cases object with
  | family | type => cases plain
  | _ => rfl

end cells

end Store

end ForeignBridge
