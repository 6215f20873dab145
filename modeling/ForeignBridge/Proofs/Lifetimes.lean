import ForeignBridge.Proofs.Collection

/-! # The lifetimes of slots and cells

A slot that was reclaimed stays empty, and a cell that is gone stays gone; nothing but a sweep empties a slot
(`Evolves.isLive`, `Moves.isLive_eq`, `Acts.persists`). While a cell is held, it stays bound to its handle, and the
slots that can be reached from there outlast every sweep (`Sound.reached`). -/

namespace ForeignBridge

namespace Ledger

variable {L L' : Ledger} {h : Handle} {c : CellId}

/-! ### Slots -/

theorem isLive_pushSlot {s : Store} (object : Object) (issued : s.Issued h) :
    (s.pushSlot object).isLive h = s.isLive h := by
  unfold Store.isLive
  rw [Store.slot?_pushSlot, if_neg]
  rintro rfl
  exact Store.not_issued_nextHandle s issued

theorem isLive_release (s : Store) (c : CellId) (h : Handle) : (s.release c).isLive h = s.isLive h :=
  Store.apply_release (·.isLive h) (fun _ _ _ => rfl) (fun s k => Store.isLive_updateSlot s k h _) s c

/-- A move neither empties a slot nor fills one that is empty. -/
theorem Move.isLive_eq (move : Move L L') (issued : L.store.Issued h) : L'.store.isLive h = L.store.isLive h := by
  cases move with
  | log | forget | fault | newCell | retain => rfl
  | root s o r u k => exact Store.isLive_updateSlot s k h _
  | unroot s o r u k => exact Store.isLive_updateSlot s k h _
  | setMember s o r u parent name k => exact Store.isLive_updateSlot s parent h _
  | push s o r u object => exact isLive_pushSlot object issued
  | hold s o r u k =>
    rw [Store.hold_eq]
    exact Store.isLive_updateSlot s k h _
  | bind s t o r u c k _ _ bound =>
    obtain ⟨_, rfl⟩ := Store.bind_eq_ok.mp bound
    exact Store.isLive_updateSlot s k h _
  | release s o r u c => exact isLive_release s c h

theorem Moves.isLive_eq (moves : Moves L L') (issued : L.store.Issued h) : L'.store.isLive h = L.store.isLive h := by
  induction moves with
  | refl => rfl
  | tail before last ih => exact (last.isLive_eq (Moves.evolves before |>.issued issued)).trans ih

/-- **What was reclaimed is never live again.** -/
theorem Evolves.isLive (evolves : Evolves L L') (issued : L.store.Issued h) (live : L'.store.isLive h = true) :
    L.store.isLive h = true := by
  induction evolves with
  | refl => exact live
  | tail before last ih =>
    rcases last with move | sweep
    · exact ih ((move.isLive_eq (Evolves.issued before issued)).symm.trans live)
    · cases sweep with
      | sweep s o r u =>
        obtain ⟨slot, hs⟩ := Store.isLive_iff.mp live
        exact ih (Store.isLive_iff.mpr ⟨slot, Store.slot?_of_slot?_sweep hs⟩)

theorem object?_changeMember {s : Store} {parent k : Handle} {name : String} {data : Datum CellId}
    (found : s.object? h = some (.value data)) : (s.setMember parent name k).object? h = some (.value data) := by
  unfold Store.setMember
  rw [Store.object?_updateSlot]
  split
  · next same =>
    subst same
    obtain ⟨slot, hs, ho⟩ := Store.object?_eq_some.mp found
    rw [hs, Option.map_some, ho]
    exact congrArg some ho
  · exact found

/-- A move leaves the data in a slot as it is. -/
theorem Move.value (move : Move L L') {data : Datum CellId} (found : L.store.object? h = some (.value data)) :
    L'.store.object? h = some (.value data) := by
  cases move with
  | log | forget | fault | newCell | retain => exact found
  | root s o r u k => rwa [Store.object?_root]
  | unroot s o r u k => rwa [Store.object?_unroot]
  | setMember s o r u parent name k => exact object?_changeMember found
  | push s o r u object =>
    rw [Store.object?_pushSlot, if_neg]
    · exact found
    · rintro rfl
      obtain ⟨slot, hs, _⟩ := Store.object?_eq_some.mp found
      exact Store.not_issued_nextHandle s (Store.issued_of_slot? hs)
  | hold s o r u k =>
    rw [Store.hold_eq]
    show (s.root k).object? h = _
    rwa [Store.object?_root]
  | bind s t o r u c k _ _ bound =>
    obtain ⟨_, rfl⟩ := Store.bind_eq_ok.mp bound
    show (s.root k).object? h = _
    rwa [Store.object?_root]
  | release s o r u c => rwa [Store.object?_release]

/-! ### Cells -/

theorem size_cells_release (s : Store) (c : CellId) : (s.release c).cells.size = s.cells.size :=
  Store.apply_release (·.cells.size) (fun s c g => Array.size_modify) (fun s h => by rw [Store.cells_unroot]) s c

/-- A cell that is there later was there before, and is still bound as it was. -/
def Persists (s t : Store) (c : CellId) : Prop :=
  ∀ later, t.cell? c = some later → ∃ cell, s.cell? c = some cell ∧ ∀ h, cell.binding = some h → later.binding = some h

theorem persists_of_eq {s t : Store} (same : t.cell? c = s.cell? c) : Persists s t c :=
  fun later there => ⟨later, same ▸ there, fun _ bound => bound⟩

theorem Persists.trans {s t w : Store} (first : Persists s t c) (second : Persists t w c) : Persists s w c := by
  intro later found
  obtain ⟨middle, hm, kept⟩ := second later found
  obtain ⟨cell, hc, kept'⟩ := first middle hm
  exact ⟨cell, hc, fun h bound => kept h (kept' h bound)⟩

theorem persists_changeCell (s : Store) (c d : CellId) (f : Cell → Cell)
    (kept : ∀ cell h, s.cell? d = some cell → cell.binding = some h → (f cell).binding = some h) :
    Persists s (s.changeCell d (Option.map f)) c := by
  intro later there
  rw [Store.cell?_changeCell _ _ _ _ rfl] at there
  split at there
  · next same =>
    subst same
    obtain ⟨cell, hc, rfl⟩ := Option.map_eq_some_iff.mp there
    exact ⟨cell, hc, fun h bound => kept cell h hc bound⟩
  · exact ⟨later, there, fun _ bound => bound⟩

theorem persists_pushCell {s : Store} {cell : Cell} (there : c.index < s.cells.size) :
    Persists s (s.pushCell cell) c := by
  apply persists_of_eq
  rw [Store.cell?_pushCell, if_neg]
  rintro rfl
  exact lt_irrefl _ there

theorem persists_release (s : Store) (c d : CellId) : Persists s (s.release d) c := by
  cases hd : s.cell? d with
  | none =>
    apply persists_of_eq
    simp [Store.release, hd]
  | some cell =>
    by_cases many : 1 < cell.holders
    · rw [Store.release_of_many hd many]
      exact persists_changeCell s c d _ fun _ _ _ bound => bound
    · rw [Store.release_of_last hd many]
      intro later there
      rw [Store.cell?_congr (Store.cells_unroot _ _), Store.cell?_changeCell _ _ _ _ rfl] at there
      split at there
      · cases there
      · exact ⟨later, there, fun _ bound => bound⟩

end Ledger

namespace Store

theorem Change.cells_le {s t : Store} {o o' : Multiset CellId} (change : s.Change o t o') :
    s.cells.size ≤ t.cells.size := by
  cases change with
  | hold o k => simp [hold_eq, pushCell]
  | bind t o c k bound =>
    obtain ⟨_, rfl⟩ := bind_eq_ok.mp bound
    simp [changeCell]
  | release o c => exact (Ledger.size_cells_release s c).ge
  | _ => simp [newCell_eq, pushCell, retain_eq, changeCell, pushSlot]

theorem Change.persists {s t : Store} {o o' : Multiset CellId} {c : CellId} (change : s.Change o t o')
    (there : c.index < s.cells.size) : Ledger.Persists s t c := by
  cases change with
  | log | fault | push => exact Ledger.persists_of_eq rfl
  | root o k | unroot o k | setMember o k => exact Ledger.persists_of_eq (cell?_updateSlot s k _ c)
  | newCell o => exact Ledger.persists_pushCell there
  | hold o k =>
    rw [hold_eq]
    intro later found
    obtain ⟨cell, hc, kept⟩ := Ledger.persists_pushCell (s := s.root k) (by rwa [cells_root]) later found
    exact ⟨cell, by rwa [cell?_congr (cells_root s k)] at hc, kept⟩
  | bind t o d k bound =>
    obtain ⟨free, rfl⟩ := bind_eq_ok.mp bound
    intro later found
    obtain ⟨cell, hc, kept⟩ := Ledger.persists_changeCell (s.root k) c d _ (fun cell h hd bound => by
      rw [cell?_congr (cells_root s k)] at hd
      simp [binding?, hd, bound] at free) later found
    exact ⟨cell, by rwa [cell?_congr (cells_root s k)] at hc, kept⟩
  | retain o d _ => exact Ledger.persists_changeCell s c d _ fun _ _ _ bound => bound
  | release o d => exact Ledger.persists_release s c d

/-- Elementary changes and sweeps in any order, with the cells held from outside before and after. -/
inductive Acts (s : Store) (o : Multiset CellId) : Store → Multiset CellId → Prop where
  | refl : Acts s o s o
  | change {t w : Store} {p q : Multiset CellId} (before : Acts s o t p) (change : t.Change p w q) : Acts s o w q
  | sweep {t : Store} {p : Multiset CellId} (before : Acts s o t p) : Acts s o t.sweep (t.garbageCells + p)

section acts

variable {s t : Store} {o o' : Multiset CellId}

theorem Acts.cells_le (acts : s.Acts o t o') : s.cells.size ≤ t.cells.size := by
  induction acts with
  | refl => exact le_rfl
  | change before change ih => exact ih.trans change.cells_le
  | @sweep t p before ih => rwa [cells_sweep]

/-- **What is gone stays gone, and what stays is bound as it was.** -/
theorem Acts.persists (acts : s.Acts o t o') {c : CellId} (there : c.index < s.cells.size) :
    Ledger.Persists s t c := by
  induction acts with
  | refl => exact Ledger.persists_of_eq rfl
  | change before change ih => exact ih.trans (change.persists (there.trans_le before.cells_le))
  | @sweep t p before ih => exact ih.trans (Ledger.persists_of_eq (cell?_congr (cells_sweep t) c))

end acts

end Store

namespace Ledger

variable {L L' : Ledger} {h : Handle} {c : CellId}

theorem Evolves.acts (evolves : Evolves L L') : L.store.Acts L.outside L'.store L'.outside := by
  induction evolves with
  | refl => exact .refl
  | tail _ last ih =>
    rcases last with move | sweep
    · exact ih.change move.change
    · cases sweep with
      | sweep s o r u => exact ih.sweep

theorem Evolves.cells_le (evolves : Evolves L L') : L.store.cells.size ≤ L'.store.cells.size := evolves.acts.cells_le

theorem Evolves.persists (evolves : Evolves L L') (there : c.index < L.store.cells.size) :
    Persists L.store L'.store c := evolves.acts.persists there

/-! ### What a held cell protects -/

/-- The slot of a held cell has a root, unless a root was taken from it that belongs to a cell. -/
theorem Sound.root_pos (sound : L.Sound) {slot : Slot} (bound : L.store.binding? c = some h) (free : h ∉ L.unrooted)
    (live : L.store.slot? h = some slot) : 0 < slot.roots := by
  rw [sound.counts h free slot live]
  exact Nat.add_pos_left (Store.boundCount_pos bound) _

/-- Whatever can be reached from the live slot of a held cell can be reached from an anchor. -/
theorem Sound.reached (sound : L.Sound) (free : L.store.read c ∉ L.unrooted)
    (live : L.store.isLive (L.store.read c) = true)
    {k : Handle} (reaches : L.store.Reaches (L.store.read c) k) : L.store.Reached k := by
  obtain ⟨slot, hs⟩ := Store.isLive_iff.mp live
  have bound : L.store.binding? c = some (L.store.read c) := by
    cases hb : L.store.binding? c with
    | some h => rw [Store.read_of_binding? hb]
    | none =>
      rw [Store.read_of_binding?_none hb, Store.slot?_null] at hs
      cases hs
  exact ⟨_, Store.mem_anchors.mpr (.inr (.inr (.inr ⟨slot, hs, sound.root_pos bound free hs⟩))), reaches⟩

end Ledger

namespace Store

theorem object?_sweep_of_reached {s : Store} {h : Handle} (reached : s.Reached h) :
    s.sweep.object? h = s.object? h := by
  rw [object?, object?, slot?_sweep_of_reached reached]

theorem object?_sweep_of_none {s : Store} {h : Handle} (dead : s.object? h = none) : s.sweep.object? h = none := by
  cases found : s.sweep.object? h with
  | none => rfl
  | some object =>
    obtain ⟨slot, hs, ho⟩ := object?_eq_some.mp found
    have there := object?_eq_some.mpr ⟨slot, slot?_of_slot?_sweep hs, ho⟩
    rw [dead] at there
    cases there

/-- From a handle without a slot nothing else can be reached. -/
theorem eq_of_reaches_dead {s : Store} {h k : Handle} (dead : s.object? h = none) (reaches : s.Reaches h k) :
    k = h := by
  induction reaches with
  | refl => rfl
  | tail _ last ih =>
    subst ih
    rw [successors, dead] at last
    cases last

theorem object?_releaseAll (cs : List CellId) (h : Handle) :
    ∀ s : Store, (s.releaseAll cs).object? h = s.object? h :=
  apply_releaseAll (·.object? h) (fun s c => object?_release s c h) cs

theorem size_cells_releaseAll (cs : List CellId) : ∀ s : Store, (s.releaseAll cs).cells.size = s.cells.size :=
  apply_releaseAll (·.cells.size) Ledger.size_cells_release cs

/-- After the sweep of a collection, objects stay as they are. -/
theorem object?_collect (s : Store) (h : Handle) : s.collect.2.object? h = s.sweep.object? h := by
  rw [collect_eq]
  exact object?_releaseAll s.garbageCells h s.sweep

/-! ### Bindings -/

theorem binding?_retain (s : Store) (c d : CellId) : (s.retain c).binding? d = s.binding? d := by
  rw [retain_eq, binding?_changeCell _ _ _ _ rfl]
  split
  · next same =>
    subst same
    unfold binding?
    cases s.cell? d <;> rfl
  · rfl

theorem binding?_release {s : Store} {c d : CellId} (apart : d ≠ c) : (s.release c).binding? d = s.binding? d := by
  cases hc : s.cell? c with
  | none => simp [release, hc]
  | some cell =>
    by_cases many : 1 < cell.holders
    · rw [release_of_many hc many, binding?_changeCell _ _ _ _ rfl, if_neg apart]
    · rw [release_of_last hc many, binding?_congr (cells_unroot _ _), binding?_changeCell _ _ _ _ rfl, if_neg apart]

/-- A cell that is left keeps its binding. -/
theorem binding?_release_of_left {s : Store} {c d : CellId} {later : Cell} (left : (s.release c).cell? d = some later) :
    (s.release c).binding? d = s.binding? d := by
  by_cases apart : d = c
  · subst apart
    cases hd : s.cell? d with
    | none => rw [release, hd]
    | some cell =>
      by_cases many : 1 < cell.holders
      · rw [release_of_many hd many, binding?_changeCell _ _ _ _ rfl, if_pos rfl, hd, binding?_of_cell? hd]
        rfl
      · rw [release_of_last hd many, cell?_congr (cells_unroot _ _), cell?_changeCell _ _ _ _ rfl, if_pos rfl] at left
        cases left
  · exact binding?_release apart

theorem cell?_of_releaseAll {d : CellId} : ∀ (cs : List CellId) {s : Store} {later : Cell},
    (s.releaseAll cs).cell? d = some later → ∃ cell, s.cell? d = some cell
  | [], _, later, left => ⟨later, left⟩
  | c :: cs, s, _, left => by
      obtain ⟨middle, there⟩ := cell?_of_releaseAll cs (s := s.release c) left
      obtain ⟨cell, there, _⟩ := Ledger.persists_release s d c middle there
      exact ⟨cell, there⟩

theorem binding?_releaseAll_of_left {d : CellId} : ∀ (cs : List CellId) {s : Store} {later : Cell},
    (s.releaseAll cs).cell? d = some later → (s.releaseAll cs).binding? d = s.binding? d
  | [], _, _, _ => rfl
  | c :: cs, s, _, left => by
      obtain ⟨middle, there⟩ := cell?_of_releaseAll cs (s := s.release c) left
      exact (binding?_releaseAll_of_left cs (s := s.release c) left).trans (binding?_release_of_left there)

theorem binding?_retainAll (d : CellId) : ∀ (cs : List CellId) (s : Store), (s.retainAll cs).binding? d = s.binding? d :=
  apply_retainAll (·.binding? d) fun s c => binding?_retain s c d

end Store

namespace Ledger

theorem Move.unrooted_le {L L' : Ledger} (move : Move L L') : L.unrooted ≤ L'.unrooted := by
  cases move with
  | unroot s o r u h => exact Multiset.le_cons_self u h
  | _ => exact le_rfl

theorem step_unrooted_le {L L' : Ledger} (step : Move L L' ∨ Sweep L L') : L.unrooted ≤ L'.unrooted := by
  rcases step with move | sweep
  · exact move.unrooted_le
  · cases sweep with
    | sweep s o r u => exact le_rfl

theorem Evolves.unrooted_le {L L' : Ledger} (evolves : Evolves L L') : L.unrooted ≤ L'.unrooted := by
  induction evolves with
  | refl => exact le_rfl
  | tail _ last ih => exact ih.trans (step_unrooted_le last)

/-- **A sweep leaves everything alone that can be reached from a held cell.** -/
theorem Sound.sweep_keeps {L : Ledger} (sound : L.Sound) {c : CellId} (free : L.store.read c ∉ L.unrooted) {k : Handle}
    (reaches : L.store.Reaches (L.store.read c) k) : L.store.sweep.object? k = L.store.object? k := by
  by_cases live : L.store.isLive (L.store.read c) = true
  · exact Store.object?_sweep_of_reached (sound.reached free live reaches)
  · have dead : L.store.object? (L.store.read c) = none := by
      cases found : L.store.object? (L.store.read c) with
      | none => rfl
      | some object => exact absurd (Store.isLive_of_object? found) live
    obtain rfl := Store.eq_of_reaches_dead dead reaches
    rw [dead]
    exact Store.object?_sweep_of_none dead

/-- A held cell stays bound to its handle. -/
theorem Evolves.binding {L L' : Ledger} (evolves : Evolves L L') {c : CellId} {h : Handle} {later : Cell}
    (bound : L.store.binding? c = some h) (there : L'.store.cell? c = some later) : L'.store.binding? c = some h := by
  obtain ⟨_, hc, _⟩ := Store.cell?_of_binding? bound
  obtain ⟨cell, hc', kept⟩ := evolves.persists (Store.lt_of_cell? hc) later there
  rw [Store.binding?_of_cell? there]
  exact kept h (by rwa [← Store.binding?_of_cell? hc'])

/-- **The slot of a cell is there as long as the cell is.** -/
theorem Evolves.isLive_of_held {L L' : Ledger} (evolves : Evolves L L') (sound : L.Sound) (finalizers : L'.unrooted = 0)
    {c : CellId} {h : Handle} (bound : L.store.binding? c = some h) (live : L.store.isLive h = true) {later : Cell}
    (there : L'.store.cell? c = some later) : L'.store.isLive h = true := by
  induction evolves generalizing later with
  | refl => exact live
  | @tail M N before last ih =>
    have none : M.unrooted = 0 := Multiset.le_zero.mp (finalizers ▸ step_unrooted_le last)
    obtain ⟨_, hc, _⟩ := Store.cell?_of_binding? bound
    have early := (Store.lt_of_cell? hc).trans_le (Evolves.cells_le before)
    have step : ∃ cell, M.store.cell? c = some cell := by
      have whole : Evolves M N := Relation.ReflTransGen.single last
      obtain ⟨cell, hm, _⟩ := whole.persists early later there
      exact ⟨cell, hm⟩
    obtain ⟨middle, hm⟩ := step
    have liveThen := ih none hm
    have boundThen := Evolves.binding before bound hm
    obtain ⟨slot, hs⟩ := Store.isLive_iff.mp liveThen
    rcases last with move | sweep
    · rwa [move.isLive_eq (Store.issued_of_slot? hs)]
    · have soundThen := Evolves.sound before sound
      have read := Store.read_of_binding? boundThen
      have free : M.store.read c ∉ M.unrooted := by simp [none]
      have reaches : M.store.Reaches (M.store.read c) h := read ▸ .refl
      have kept := soundThen.sweep_keeps free reaches
      cases sweep with
      | sweep s o r u => exact Store.isLive_of_object? (kept.trans (Store.object?_eq_some.mpr ⟨slot, hs, rfl⟩))

end Ledger

end ForeignBridge
