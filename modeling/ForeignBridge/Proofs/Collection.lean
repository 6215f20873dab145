import ForeignBridge.Proofs.Ledger

/-! # What a collection keeps

`Reaches` follows references from slot to slot. The marks that a collection makes are exactly the slots that some
anchor reaches (`isMarked_iff`): the work list is kept closed in the sense that whatever is marked has all its
successors marked or waiting. So `sweep` empties a slot exactly if no anchor reaches it, and the rest of a collection
only releases the cells of the emptied slots (`collect_eq`). -/

namespace ForeignBridge

namespace Store

/-- The slot of `k` can be reached from that of `h` by following references. -/
def Reaches (s : Store) : Handle → Handle → Prop := Relation.ReflTransGen fun h k => k ∈ s.successors h

/-- The slot of `h` can be reached from an anchor. -/
def Reached (s : Store) (h : Handle) : Prop := ∃ a ∈ s.anchors, s.Reaches a h

/-! ### Marking -/

section marking

variable {next : Handle → List Handle}

/-- Marks stay. -/
theorem isMarked_markFrom_of_isMarked (marks : Array Bool) (work : List Handle) (h : Handle)
    (marked : isMarked marks h = true) : isMarked (markFrom next marks work) h = true := by
  fun_induction markFrom next marks work with
  | case1 => exact marked
  | case2 marks k rest unmarked ih =>
    apply ih
    obtain ⟨inside, _⟩ := unmarked
    simp only [isMarked, Array.getD_eq_getD_getElem?, Array.getElem?_set] at marked ⊢
    split
    · rfl
    · exact marked
  | case3 marks k rest _ ih => exact ih marked

theorem isMarked_set {marks : Array Bool} {h : Handle} (inside : h.raw < marks.size) (k : Handle) :
    isMarked (marks.set h.raw true inside) k = (decide (k = h) || isMarked marks k) := by
  simp only [isMarked, Array.getD_eq_getD_getElem?, Array.getElem?_set]
  by_cases e : k = h
  · subst e
    simp
  · have : h.raw ≠ k.raw := fun e' => e (by cases h; cases k; simp_all)
    simp [e, this]

theorem isMarked_of_not_unmarked {marks : Array Bool} {h : Handle} (inside : h.raw < marks.size)
    (marked : ¬ ∃ inside : h.raw < marks.size, marks[h.raw] = false) : isMarked marks h = true := by
  have : marks[h.raw] = true := by
    by_contra no
    exact marked ⟨inside, by simpa using no⟩
  simp [isMarked, Array.getD_eq_getD_getElem?, inside, this]

/-- All work is marked in the end. -/
theorem isMarked_markFrom_of_mem (marks : Array Bool) (work : List Handle) (h : Handle) (hm : h ∈ work)
    (inside : h.raw < marks.size) : isMarked (markFrom next marks work) h = true := by
  fun_induction markFrom next marks work with
  | case1 => simp at hm
  | case2 marks k rest unmarked ih =>
    obtain ⟨ink, fresh⟩ := unmarked
    rcases List.mem_cons.mp hm with rfl | hm
    · apply isMarked_markFrom_of_isMarked
      rw [isMarked_set]
      simp
    · exact ih (List.mem_append_right _ hm) (by simpa using inside)
  | case3 marks k rest marked ih =>
    rcases List.mem_cons.mp hm with rfl | hm
    · exact isMarked_markFrom_of_isMarked _ _ _ (isMarked_of_not_unmarked inside marked)
    · exact ih hm inside

/-- What gets marked has its successors marked too. -/
theorem isMarked_markFrom_next (marks : Array Bool) (work : List Handle) (h k : Handle)
    (marked : isMarked (markFrom next marks work) h = true) (fresh : isMarked marks h = false) (hk : k ∈ next h)
    (inside : k.raw < marks.size) : isMarked (markFrom next marks work) k = true := by
  fun_induction markFrom next marks work with
  | case1 => rw [marked] at fresh; exact absurd fresh (by simp)
  | case2 marks j rest unmarked ih =>
    obtain ⟨ij, fj⟩ := unmarked
    by_cases e : h = j
    · subst e
      exact isMarked_markFrom_of_mem _ _ _ (List.mem_append_left _ hk) (by simpa using inside)
    · apply ih marked
      · rw [isMarked_set]
        simp [e, fresh]
      · simpa using inside
  | case3 marks j rest _ ih => exact ih marked fresh inside

/-- Only what the work reaches gets marked. -/
theorem reaches_of_isMarked_markFrom (marks : Array Bool) (work : List Handle) (h : Handle)
    (marked : isMarked (markFrom next marks work) h = true) :
    isMarked marks h = true ∨ ∃ a ∈ work, Relation.ReflTransGen (fun x y => y ∈ next x) a h := by
  fun_induction markFrom next marks work with
  | case1 => exact .inl marked
  | case2 marks j rest unmarked ih =>
    rcases ih marked with old | ⟨a, ha, path⟩
    · rw [isMarked_set, Bool.or_eq_true, decide_eq_true_eq] at old
      rcases old with rfl | old
      · exact .inr ⟨_, List.mem_cons_self, .refl⟩
      · exact .inl old
    · right
      rcases List.mem_append.mp ha with ha | ha
      · exact ⟨j, List.mem_cons_self, .head ha path⟩
      · exact ⟨a, List.mem_cons_of_mem _ ha, path⟩
  | case3 marks j rest _ ih =>
    rcases ih marked with old | ⟨a, ha, path⟩
    · exact .inl old
    · exact .inr ⟨a, List.mem_cons_of_mem _ ha, path⟩

end marking

/-! ### The live slots and the anchors -/

theorem mem_liveSlots {s : Store} {h : Handle} {slot : Slot} : (h, slot) ∈ s.liveSlots ↔ s.slot? h = some slot := by
  unfold liveSlots
  rw [List.mem_filterMap]
  constructor
  · rintro ⟨⟨x, i⟩, hx, found⟩
    obtain ⟨y, rfl, pair⟩ := Option.map_eq_some_iff.mp found
    obtain ⟨rfl, rfl⟩ := Prod.mk.inj pair
    rw [List.mem_zipIdx_iff_getElem?, Array.getElem?_toList] at hx
    rw [slot?_of_not_null (by simp [Handle.isNull])]
    simp [hx]
  · intro hs
    have hn : h.isNull = false := by
      by_contra hn
      simp [slot?, hn] at hs
    rw [slot?_of_not_null hn, Option.join_eq_some_iff] at hs
    refine ⟨(some slot, h.raw - 1), ?_, ?_⟩
    · rw [List.mem_zipIdx_iff_getElem?, Array.getElem?_toList]
      exact hs
    · obtain ⟨n⟩ := h
      simp only [Handle.isNull, beq_eq_false_iff_ne] at hn
      simp only [Option.map_some, Option.some.injEq, Prod.mk.injEq, Handle.mk.injEq, and_true]
      omega

theorem nodup_liveSlots (s : Store) : (s.liveSlots.map Prod.fst).Nodup := by
  have positions : (s.slots.toList.zipIdx.map fun p => (⟨p.2 + 1⟩ : Handle)).Nodup := by
    have : (s.slots.toList.zipIdx.map fun p => (⟨p.2 + 1⟩ : Handle))
        = (s.slots.toList.zipIdx.map Prod.snd).map fun i => ⟨i + 1⟩ := by
      rw [List.map_map]
      rfl
    rw [this, List.zipIdx_map_snd]
    apply List.Nodup.map _ List.nodup_range'
    intro i j e
    simpa using e
  refine List.Nodup.sublist ?_ positions
  unfold liveSlots
  induction s.slots.toList.zipIdx with
  | nil => exact List.Sublist.refl _
  | cons p rest ih =>
    obtain ⟨slot, i⟩ := p
    cases slot with
    | none => exact ih.cons _
    | some slot => exact ih.cons_cons _

theorem mem_anchors {s : Store} {a : Handle} : a ∈ s.anchors ↔ a = mainModule ∨ s.fault = some a ∨ a ∈ s.entries ∨
    ∃ slot, s.slot? a = some slot ∧ 0 < slot.roots := by
  unfold anchors
  simp only [List.mem_cons, List.mem_append, Option.mem_toList, List.mem_map, List.mem_filter, decide_eq_true_eq,
    or_assoc]
  refine or_congr_right (or_congr_right (or_congr_right ?_))
  constructor
  · rintro ⟨⟨h, slot⟩, ⟨hm, hs⟩, rfl⟩
    exact ⟨slot, mem_liveSlots.mp hm, hs⟩
  · rintro ⟨slot, hm, hs⟩
    exact ⟨(a, slot), ⟨mem_liveSlots.mpr hm, hs⟩, rfl⟩

theorem mem_successors {s : Store} {h k : Handle} :
    k ∈ s.successors h ↔ ∃ object, s.object? h = some object ∧ k ∈ object.handles := by
  unfold successors
  cases s.object? h <;> simp

theorem object?_null (s : Store) : s.object? Handle.null = none := rfl

/-! ### What is marked -/

/-- A live slot is marked exactly if an anchor reaches it. -/
theorem isMarked_marks_iff {s : Store} {h : Handle} (live : s.isLive h = true) :
    isMarked s.marks h = true ↔ s.Reached h := by
  obtain ⟨slot, hs⟩ := isLive_iff.mp live
  have start (k : Handle) :
      isMarked ((Array.replicate (s.lastId + 1) false).set 0 true (by simp)) k = true ↔ k = Handle.null := by
    rw [isMarked, Array.getD_eq_getD_getElem?, Array.getElem?_set]
    obtain ⟨n⟩ := k
    by_cases e : n = 0
    · subst e
      simp [Handle.null]
    · have hne : ¬ 0 = n := Ne.symm e
      simp only [hne, if_false, Handle.null, Handle.mk.injEq, e, iff_false, Array.getElem?_replicate]
      split <;> simp
  constructor
  · intro marked
    rcases reaches_of_isMarked_markFrom _ _ h marked with null | reached
    · rw [(start h).mp null, slot?_null] at hs
      exact absurd hs (by simp)
    · exact reached
  · rintro ⟨a, ha, path⟩
    -- along the path every slot is live, so it lies inside the marks
    have inside : ∀ k, s.Issued k → k.raw < ((Array.replicate (s.lastId + 1) false).set 0 true (by simp)).size := by
      intro k hk
      simp only [Array.size_set, Array.size_replicate]
      exact Nat.lt_succ_of_le hk
    have along : ∀ k, s.isLive k = true → s.Reaches a k → isMarked s.marks k = true := by
      intro k hk path
      induction path with
      | refl =>
        obtain ⟨slot, hs⟩ := isLive_iff.mp hk
        exact isMarked_markFrom_of_mem _ _ a ha (inside a (issued_of_slot? hs))
      | tail path hm ih =>
        rename_i j k
        obtain ⟨object, ho, hmem⟩ := mem_successors.mp hm
        obtain ⟨slot, hs⟩ := isLive_iff.mp hk
        apply isMarked_markFrom_next _ _ j k (ih (isLive_of_object? ho)) _ hm (inside k (issued_of_slot? hs))
        rw [Bool.eq_false_iff, Ne, start]
        rintro rfl
        rw [object?_null] at ho
        exact absurd ho (by simp)
    exact along h live path

theorem mem_garbage {s : Store} {h : Handle} {slot : Slot} :
    (h, slot) ∈ s.garbage ↔ s.slot? h = some slot ∧ ¬ s.Reached h := by
  simp only [garbage, List.mem_filter, mem_liveSlots, Bool.not_eq_true', Bool.eq_false_iff]
  constructor
  · rintro ⟨hs, hm⟩
    exact ⟨hs, fun reached => hm ((isMarked_marks_iff (isLive_iff.mpr ⟨slot, hs⟩)).mpr reached)⟩
  · rintro ⟨hs, hm⟩
    exact ⟨hs, fun marked => hm ((isMarked_marks_iff (isLive_iff.mpr ⟨slot, hs⟩)).mp marked)⟩

/-! ### Emptying -/

theorem slot?_empty {s : Store} {h : Handle} (hn : h.isNull = false) (k : Handle) :
    (s.empty h).slot? k = if k = h then none else s.slot? k := by
  by_cases kn : k.isNull
  · have : k ≠ h := fun e => by rw [e, hn] at kn; exact absurd kn (by simp)
    rw [if_neg this, Handle.isNull_iff.mp kn, slot?_null, slot?_null]
  · simp only [Bool.not_eq_true] at kn
    rw [slot?_of_not_null kn, slot?_of_not_null kn, empty, Array.getElem?_modify]
    by_cases e : k = h
    · subst e
      rw [if_pos rfl, if_pos rfl]
      cases s.slots[k.raw - 1]? <;> rfl
    · rw [if_neg e, if_neg fun e' => e (Handle.eq_of_pred_eq kn hn e'.symm)]

theorem boxed_empty {s : Store} {h : Handle} {slot : Slot} (hs : s.slot? h = some slot) :
    (s.empty h).boxed + slot.object.cells = s.boxed := by
  have hn : h.isNull = false := by
    by_contra hn
    simp [slot?, hn] at hs
  rw [slot?_of_not_null hn, Option.join_eq_some_iff] at hs
  have step := sum_map_modify slotCells (fun _ => none) s.slots.toList (h.raw - 1) (some slot)
    (by rw [Array.getElem?_toList]; exact hs)
  simpa [boxed, empty, slotCells] using step

/-- Emptying distinct live slots. -/
theorem foldl_empty (dead : List (Handle × Slot)) :
    ∀ s : Store, (dead.map Prod.fst).Nodup → (∀ d ∈ dead, s.slot? d.1 = some d.2) →
      let t := dead.foldl (fun s d => s.empty d.1) s
      (∀ k, t.slot? k = if k ∈ dead.map Prod.fst then none else s.slot? k) ∧
        t.boxed + dead.flatMap (fun d => d.2.object.cells) = s.boxed := by
  induction dead with
  | nil =>
    intro s _ _
    exact ⟨fun k => by simp, by simp⟩
  | cons d dead ih =>
    intro s distinct present
    obtain ⟨fresh, distinct⟩ := List.nodup_cons.mp distinct
    have hd := present d List.mem_cons_self
    have hn : d.1.isNull = false := by
      by_contra hn
      simp [slot?, hn] at hd
    have later : ∀ e ∈ dead, (s.empty d.1).slot? e.1 = some e.2 := by
      intro e he
      have : e.1 ≠ d.1 := fun same => fresh (same ▸ List.mem_map_of_mem he)
      rw [slot?_empty hn, if_neg this]
      exact present e (List.mem_cons_of_mem _ he)
    obtain ⟨slots, boxed⟩ := ih (s.empty d.1) distinct later
    refine ⟨fun k => ?_, ?_⟩
    · rw [List.foldl_cons, slots k, slot?_empty hn]
      simp only [List.map_cons, List.mem_cons]
      by_cases e : k = d.1 <;> by_cases m : k ∈ dead.map Prod.fst <;> simp [e, m]
    · rw [List.foldl_cons, List.flatMap_cons, ← boxed_empty hd, ← boxed, ← Multiset.coe_add]
      abel

theorem sweep_spec (s : Store) :
    (∀ k, s.sweep.slot? k = if k ∈ s.garbage.map Prod.fst then none else s.slot? k) ∧
      s.sweep.boxed + s.garbageCells = s.boxed := by
  apply foldl_empty
  · exact List.Nodup.sublist (List.Sublist.map _ List.filter_sublist) (nodup_liveSlots s)
  · exact fun d hd => (mem_garbage.mp hd).1

theorem slot?_sweep_of_reached {s : Store} {h : Handle} (reached : s.Reached h) : s.sweep.slot? h = s.slot? h := by
  rw [(sweep_spec s).1 h, if_neg]
  intro hm
  obtain ⟨⟨k, slot⟩, hd, rfl⟩ := List.mem_map.mp hm
  exact (mem_garbage.mp hd).2 reached

theorem slot?_sweep_of_not_reached {s : Store} {h : Handle} (unreached : ¬ s.Reached h) : s.sweep.slot? h = none := by
  rw [(sweep_spec s).1 h]
  split
  · rfl
  · next hm =>
    cases hs : s.slot? h with
    | none => rfl
    | some slot => exact absurd (List.mem_map_of_mem (mem_garbage.mpr ⟨hs, unreached⟩)) hm

theorem slot?_of_slot?_sweep {s : Store} {h : Handle} {slot : Slot} (hs : s.sweep.slot? h = some slot) :
    s.slot? h = some slot := by
  rw [(sweep_spec s).1 h] at hs
  split at hs
  · exact absurd hs (by simp)
  · exact hs

/-- What does not depend on the slots is the same after a sweep. -/
theorem apply_sweep {α : Sort*} (view : Store → α) (empty : ∀ s h, view (s.empty h) = view s) (s : Store) :
    view s.sweep = view s := by
  unfold sweep
  have all : ∀ (dead : List (Handle × Slot)) (t : Store), view (dead.foldl (fun s d => s.empty d.1) t) = view t := by
    intro dead
    induction dead with
    | nil => exact fun t => rfl
    | cons d dead ih => exact fun t => (ih (t.empty d.1)).trans (empty t d.1)
  exact all _ s

theorem cells_sweep (s : Store) : s.sweep.cells = s.cells := apply_sweep Store.cells (fun _ _ => rfl) s

theorem fault_sweep (s : Store) : s.sweep.fault = s.fault := apply_sweep Store.fault (fun _ _ => rfl) s

theorem lastId_sweep (s : Store) : s.sweep.lastId = s.lastId := apply_sweep Store.lastId (fun _ _ => rfl) s

theorem families_sweep (s : Store) : s.sweep.families = s.families := apply_sweep Store.families (fun _ _ => rfl) s

theorem applied_sweep (s : Store) : s.sweep.applied = s.applied := apply_sweep Store.applied (fun _ _ => rfl) s

theorem entries_sweep (s : Store) : s.sweep.entries = s.entries := entries_congr (families_sweep s) (applied_sweep s)

/-- A collection empties the slots that cannot be reached, and then releases the cells that they held. -/
theorem collect_eq (s : Store) : s.collect = (s.garbage.length, s.sweep.releaseAll s.garbageCells) := by
  simp only [collect, sweep, garbageCells, releaseAll, List.foldl_flatMap]

end Store

/-! ### Sweeping keeps the invariant -/

namespace Ledger

variable {L L' : Ledger}

theorem Sweep.lastId_eq (sweep : Sweep L L') : L'.store.lastId = L.store.lastId := by
  cases sweep with
  | sweep s o r u => exact Store.lastId_sweep s

theorem Sweep.sound (sound : L.Sound) (sweep : Sweep L L') : L'.Sound := by
  have last := sweep.lastId_eq
  cases sweep with
  | sweep s o r u =>
    have issued (h : Handle) : s.Issued h → s.sweep.Issued h := fun hs => hs.mono last.ge
    constructor
    · refine sound.closed.mono last.ge ?_ ?_ ?_ ?_
      · exact fun h e => .inl (by rwa [Store.fault_sweep] at e)
      · exact fun h e => .inl (by rwa [Store.entries_sweep] at e)
      · exact fun c h e => .inl (by rwa [Store.binding?_congr (Store.cells_sweep s)] at e)
      · intro h object e
        obtain ⟨slot, hs, rfl⟩ := Store.object?_eq_some.mp e
        exact .inl (Store.object?_eq_some.mpr ⟨slot, Store.slot?_of_slot?_sweep hs, rfl⟩)
    · refine (sound.balanced.congr (Store.cells_sweep s)).of_eq ?_
      show o + s.boxed = s.garbageCells + o + s.sweep.boxed
      rw [← (Store.sweep_spec s).2]
      abel
    · exact fun h hr => issued h (sound.rooted h hr)
    · exact fun h hu => issued h (sound.unrooted h hu)
    · intro h hu slot hs
      rw [Store.boundCount_congr (Store.cells_sweep s)]
      exact sound.counts h hu slot (Store.slot?_of_slot?_sweep hs)

theorem Moves.evolves (moves : Moves L L') : Evolves L L' := by
  induction moves with
  | refl => exact .refl
  | tail _ last ih => exact ih.tail (.inl last)

/-- **Every operation keeps the invariant.** -/
theorem Evolves.sound (evolves : Evolves L L') (sound : L.Sound) : L'.Sound := by
  induction evolves with
  | refl => exact sound
  | tail _ last ih =>
    rcases last with move | sweep
    · exact move.sound ih
    · exact sweep.sound ih

theorem Moves.sound (moves : Moves L L') (sound : L.Sound) : L'.Sound := moves.evolves.sound sound

theorem Evolves.lastId_le (evolves : Evolves L L') : L.store.lastId ≤ L'.store.lastId := by
  induction evolves with
  | refl => exact le_rfl
  | tail _ last ih =>
    rcases last with move | sweep
    · exact ih.trans move.lastId_le
    · exact ih.trans sweep.lastId_eq.ge

theorem Evolves.issued (evolves : Evolves L L') {h : Handle} (issued : L.store.Issued h) : L'.store.Issued h :=
  issued.mono evolves.lastId_le

end Ledger

end ForeignBridge
