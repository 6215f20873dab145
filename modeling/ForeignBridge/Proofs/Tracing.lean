import ForeignBridge.Proofs.Releases

/-! # Collection traces references

`Traced` says which slots a collection has to keep, by following references. A collection keeps exactly these, leaves
their objects as they are and tells how many others there were (`collections_trace`). It takes away one root for each cell
that goes with a reclaimed object. None of this depends on the order in which slots, anchors and references are listed:
a collection by any other listing is the same collection (`collectBy_eq`). -/

namespace ForeignBridge

namespace Store

variable {s : Store} {h k : Handle}

/-- The slots that a collection keeps: the main namespace, the pending exception, the families and applied types in the
tables, slots with roots, and whatever a kept slot refers to. -/
inductive Traced (s : Store) : Handle → Prop where
  | main : Traced s mainModule
  | fault {h : Handle} (pending : s.fault = some h) : Traced s h
  | family {h : Handle} (listed : h ∈ s.families.values) : Traced s h
  | applied {h : Handle} (listed : h ∈ s.applied.map Prod.snd) : Traced s h
  | rooted {h : Handle} (roots : 0 < s.rootCount h) : Traced s h
  | reference {h k : Handle} {object : Object} (traced : Traced s h) (found : s.object? h = some object)
      (refers : k ∈ object.handles) : Traced s k

theorem traced_of_anchor (anchor : h ∈ s.anchors) : s.Traced h := by
  rcases mem_anchors.mp anchor with rfl | pending | entry | ⟨slot, hs, roots⟩
  · exact .main
  · exact .fault pending
  · exact (mem_entries.mp entry).elim .family .applied
  · exact .rooted (by rwa [rootCount_of_slot? hs])

theorem anchor_of_entry (entry : h ∈ s.entries) : h ∈ s.anchors := mem_anchors.mpr (.inr (.inr (.inl entry)))

theorem anchor_of_roots (roots : 0 < s.rootCount h) : h ∈ s.anchors := by
  cases hs : s.slot? h with
  | none => simp [rootCount, hs] at roots
  | some slot => exact mem_anchors.mpr (.inr (.inr (.inr ⟨slot, hs, rootCount_of_slot? hs ▸ roots⟩)))

theorem traced_iff : s.Traced h ↔ s.Reached h := by
  constructor
  · intro traced
    induction traced with
    | main => exact ⟨_, mem_anchors.mpr (.inl rfl), .refl⟩
    | fault pending => exact ⟨_, mem_anchors.mpr (.inr (.inl pending)), .refl⟩
    | family listed => exact ⟨_, anchor_of_entry (mem_entries.mpr (.inl listed)), .refl⟩
    | applied listed => exact ⟨_, anchor_of_entry (mem_entries.mpr (.inr listed)), .refl⟩
    | rooted roots => exact ⟨_, anchor_of_roots roots, .refl⟩
    | reference _ found refers reached =>
      obtain ⟨a, anchor, path⟩ := reached
      exact ⟨a, anchor, path.tail (mem_successors.mpr ⟨_, found, refers⟩)⟩
  · rintro ⟨a, anchor, path⟩
    induction path with
    | refl => exact traced_of_anchor anchor
    | tail _ last traced =>
      obtain ⟨object, found, refers⟩ := mem_successors.mp last
      exact .reference traced found refers

/-! ### What is left -/

theorem isLive_collect (s : Store) (h : Handle) :
    s.collect.2.isLive h = true ↔ s.isLive h = true ∧ s.Traced h := by
  have swept : s.collect.2.isLive h = s.sweep.isLive h := by
    have same := object?_collect s h
    rw [object?, object?] at same
    simpa [isLive] using congrArg Option.isSome same
  rw [swept, traced_iff]
  by_cases reached : s.Reached h
  · simp [isLive, slot?_sweep_of_reached reached, reached]
  · simp [isLive, slot?_sweep_of_not_reached reached, reached]

theorem object?_collect_of_traced (traced : s.Traced h) : s.collect.2.object? h = s.object? h := by
  rw [object?_collect, object?_sweep_of_reached (traced_iff.mp traced)]

/-- The number that a collection tells is the number of slots that it removes. -/
theorem collect_fst (s : Store) :
    s.collect.1 = (s.liveSlots.filter fun slot => !s.collect.2.isLive slot.1).length := by
  show (s.liveSlots.filter fun slot => !isMarked s.marks slot.1).length = _
  congr 1
  apply List.filter_congr
  rintro ⟨h, slot⟩ there
  have live : s.isLive h = true := isLive_iff.mpr ⟨slot, mem_liveSlots.mp there⟩
  have same : isMarked s.marks h = s.collect.2.isLive h := by
    rw [Bool.eq_iff_iff, isMarked_marks_iff live, isLive_collect, traced_iff]
    exact (and_iff_right live).symm
  rw [same]

/-! ### The roots that are given back -/

/-- The cells that go with the objects of the reclaimed slots: all their holders are there. -/
def orphans (s : Store) : Multiset CellId := s.goners s.garbageCells

theorem rootCount_collect (traced : s.Traced h) :
    s.collect.2.rootCount h = s.rootCount h - s.heldCount s.orphans h := by
  have swept : s.sweep.rootCount h = s.rootCount h := by
    rw [rootCount, rootCount, slot?_sweep_of_reached (traced_iff.mp traced)]
  have goners : s.sweep.goners s.garbageCells = s.orphans := by
    unfold orphans goners holderCount
    simp only [cell?_congr (cells_sweep s)]
  have held : s.sweep.heldCount s.orphans h = s.heldCount s.orphans h := by
    simp only [heldCount, binding?_congr (cells_sweep s)]
  rw [collect_eq, rootCount_releaseAll, swept, goners, held]

theorem rootCount_collect_of_accounted (traced : s.Traced h) (accounted : s.boundCount h ≤ s.rootCount h) :
    s.collect.2.rootCount h + s.heldCount s.orphans h = s.rootCount h := by
  rw [rootCount_collect traced]
  exact Nat.sub_add_cancel ((heldCount_le_boundCount s.orphans).trans accounted)

theorem mem_boxed_iff {c : CellId} : c ∈ s.boxed ↔ ∃ h object, s.object? h = some object ∧ c ∈ object.cells := by
  constructor
  · intro held
    rw [boxed, ← Multiset.sum_coe, ← Multiset.join, Multiset.mem_join] at held
    obtain ⟨cells, listed, hc⟩ := held
    obtain ⟨slot, there, rfl⟩ := List.mem_map.mp (Multiset.mem_coe.mp listed)
    obtain ⟨i, hi⟩ := List.mem_iff_getElem?.mp there
    rw [Array.getElem?_toList] at hi
    cases slot with
    | none => simp [slotCells] at hc
    | some slot =>
      have found : s.slot? ⟨i + 1⟩ = some slot := by
        rw [slot?_of_not_null (by simp [Handle.isNull])]
        simp [hi]
      exact ⟨_, _, object?_eq_some.mpr ⟨slot, found, rfl⟩, hc⟩
  · rintro ⟨h, object, found, hc⟩
    obtain ⟨slot, hs, rfl⟩ := object?_eq_some.mp found
    exact mem_boxed_of_slot? hs hc

theorem mem_garbageCells {c : CellId} :
    c ∈ s.garbageCells ↔ ∃ h object, s.object? h = some object ∧ ¬ s.Traced h ∧ c ∈ object.cells := by
  simp only [garbageCells, List.mem_flatMap, traced_iff]
  constructor
  · rintro ⟨⟨h, slot⟩, dead, hc⟩
    obtain ⟨hs, unreached⟩ := mem_garbage.mp dead
    exact ⟨h, slot.object, object?_eq_some.mpr ⟨slot, hs, rfl⟩, unreached, hc⟩
  · rintro ⟨h, object, found, unreached, hc⟩
    obtain ⟨slot, hs, rfl⟩ := object?_eq_some.mp found
    exact ⟨(h, slot), mem_garbage.mpr ⟨hs, unreached⟩, hc⟩

theorem mem_boxed_sweep {c : CellId} :
    c ∈ s.sweep.boxed ↔ ∃ h object, s.object? h = some object ∧ s.Traced h ∧ c ∈ object.cells := by
  simp only [mem_boxed_iff, traced_iff]
  refine exists_congr fun h => exists_congr fun object => ?_
  by_cases reached : s.Reached h
  · rw [object?_sweep_of_reached reached, and_congr_right_iff]
    exact fun _ => (and_iff_right reached).symm
  · simp [object?, slot?_sweep_of_not_reached reached, reached]

/-- Where the holders are accounted for, the cells that go are those that a reclaimed object holds, and nobody else. -/
theorem mem_orphans_iff {o : Multiset CellId} (balanced : s.Balanced (o + s.boxed)) (c : CellId) :
    c ∈ s.orphans ↔ c ∉ o ∧ (∃ h object, s.object? h = some object ∧ ¬ s.Traced h ∧ c ∈ object.cells) ∧
      ∀ h object, s.object? h = some object → s.Traced h → c ∉ object.cells := by
  have holders : s.holderCount c = o.count c + s.sweep.boxed.count c + s.garbageCells.count c := by
    rw [balanced.holders, ← (sweep_spec s).2, ← add_assoc, Multiset.count_add, Multiset.count_add, Multiset.coe_count]
  have kept : (∀ h object, s.object? h = some object → s.Traced h → c ∉ object.cells) ↔ s.sweep.boxed.count c = 0 := by
    rw [Multiset.count_eq_zero, mem_boxed_sweep]
    push Not
    rfl
  rw [orphans, goners, Multiset.mem_filter, Multiset.mem_coe, holders, kept, ← Multiset.count_eq_zero, mem_garbageCells]
  constructor
  · rintro ⟨reclaimed, all⟩
    exact ⟨by omega, reclaimed, by omega⟩
  · rintro ⟨outside, reclaimed, others⟩
    exact ⟨reclaimed, by omega⟩

/-! ### Other listings -/

section marking

variable {next next' : Handle → List Handle}

theorem size_markFrom (marks : Array Bool) (work : List Handle) : (markFrom next marks work).size = marks.size := by
  fun_induction markFrom next marks work with
  | case1 => rfl
  | case2 marks k rest _ ih => simpa using ih
  | case3 marks k rest _ ih => exact ih

/-- Marking stays within any marks that have the marks and the work, and with each slot marked since the start what it
refers to. -/
theorem isMarked_of_isMarked_markFrom {bound : Array Bool} (first marks : Array Bool) (work : List Handle)
    (size : bound.size = marks.size) (early : ∀ h, isMarked first h = true → isMarked marks h = true)
    (inside : ∀ h, isMarked marks h = true → isMarked bound h = true)
    (waiting : ∀ h ∈ work, h.raw < marks.size → isMarked bound h = true)
    (closed : ∀ h k, isMarked bound h = true → isMarked first h = false → k ∈ next h → k.raw < bound.size →
      isMarked bound k = true) :
    ∀ h, isMarked (markFrom next marks work) h = true → isMarked bound h = true := by
  fun_induction markFrom next marks work with
  | case1 marks => exact inside
  | case2 marks j rest unmarked ih =>
    obtain ⟨ij, fresh⟩ := unmarked
    have marked := waiting j List.mem_cons_self ij
    have unseen : isMarked first j = false := by
      rw [Bool.eq_false_iff]
      intro old
      have := early j old
      simp [isMarked, Array.getD_eq_getD_getElem?, ij, fresh] at this
    apply ih (by simpa using size)
    · intro h old
      rw [isMarked_set, early h old, Bool.or_true]
    · intro h old
      rw [isMarked_set, Bool.or_eq_true, decide_eq_true_eq] at old
      rcases old with rfl | old
      · exact marked
      · exact inside h old
    · intro h listed ih
      rw [Array.size_set] at ih
      rcases List.mem_append.mp listed with refers | later
      · exact closed j h marked unseen refers (size ▸ ih)
      · exact waiting h (List.mem_cons_of_mem _ later) ih
  | case3 marks j rest _ ih => exact ih size early inside fun h later => waiting h (List.mem_cons_of_mem _ later)

/-- The marks depend only on what is listed. -/
theorem markFrom_congr (marks : Array Bool) {work work' : List Handle} (refers : ∀ h k, k ∈ next h ↔ k ∈ next' h)
    (listed : ∀ h, h ∈ work ↔ h ∈ work') : markFrom next marks work = markFrom next' marks work' := by
  have within : ∀ {next next' : Handle → List Handle} {work work' : List Handle},
      (∀ h k, k ∈ next h ↔ k ∈ next' h) → (∀ h, h ∈ work ↔ h ∈ work') →
      ∀ h, isMarked (markFrom next marks work) h = true → isMarked (markFrom next' marks work') h = true := by
    intro next next' work work' refers listed
    apply isMarked_of_isMarked_markFrom marks marks work (size_markFrom marks work') (fun _ old => old)
    · exact fun h old => isMarked_markFrom_of_isMarked marks work' h old
    · exact fun h hm ih => isMarked_markFrom_of_mem marks work' h ((listed h).mp hm) ih
    · intro h k marked fresh hk ik
      exact isMarked_markFrom_next marks work' h k marked fresh ((refers h k).mp hk) (size_markFrom marks work' ▸ ik)
  apply Array.ext
  · rw [size_markFrom, size_markFrom]
  · intro i hi hi'
    have same : isMarked (markFrom next marks work) ⟨i⟩ = isMarked (markFrom next' marks work') ⟨i⟩ :=
      Bool.eq_iff_iff.mpr ⟨within refers listed ⟨i⟩,
        within (fun h k => (refers h k).symm) (fun h => (listed h).symm) ⟨i⟩⟩
    simpa [isMarked, Array.getD_eq_getD_getElem?, hi, hi'] using same

end marking

/-- A listing of what a collection goes through: the references of each slot, the anchors and the live slots, in any
order. -/
structure Listing (s : Store) where
  next : Handle → List Handle
  anchors : List Handle
  slots : List (Handle × Slot)
  mem_next : ∀ h k, k ∈ next h ↔ k ∈ s.successors h
  mem_anchors : ∀ h, h ∈ anchors ↔ h ∈ s.anchors
  perm_slots : slots.Perm s.liveSlots

/-- A collection that goes through a listing. -/
def collectBy (s : Store) (listing : s.Listing) : ℕ × Store :=
  let marks := markFrom listing.next ((Array.replicate (s.lastId + 1) false).setIfInBounds 0 true) listing.anchors
  let dead := listing.slots.filter fun slot => !isMarked marks slot.1
  let s := dead.foldl (fun s slot => s.empty slot.1) s
  (dead.length, dead.foldl (fun s slot => s.releaseAll slot.2.object.cells) s)

theorem empty_comm (s : Store) (h k : Handle) : (s.empty h).empty k = (s.empty k).empty h := by
  simp only [empty, modify_comm s.slots _ (h.raw - 1)]

theorem collectBy_eq (s : Store) (listing : s.Listing) : s.collectBy listing = s.collect := by
  have marks : markFrom listing.next ((Array.replicate (s.lastId + 1) false).setIfInBounds 0 true) listing.anchors =
      s.marks := by
    rw [markFrom_congr _ listing.mem_next listing.mem_anchors, Store.marks, Array.setIfInBounds, dif_pos]
  have dead : (listing.slots.filter fun slot => !isMarked s.marks slot.1).Perm s.garbage := listing.perm_slots.filter _
  have emptied := dead.foldl_eq' (f := fun (s : Store) d => s.empty d.1) (fun a _ b _ s => empty_comm s a.1 b.1) s
  have released := fun t : Store => releaseAll_perm (dead.flatMap_right fun d => d.2.object.cells) t
  simp only [releaseAll, List.foldl_flatMap] at released
  unfold collectBy
  rw [marks]
  refine Prod.ext dead.length_eq ((released _).trans ?_)
  exact congrArg (s.garbage.foldl fun s d => s.releaseAll d.2.object.cells) emptied

/-- **A collection traces references exactly.** In every store, whatever its handles refer to: what is left are the
slots that are traced; the collection tells how many others there were; an object that stays is unchanged; its slot
loses one root for each cell bound to it whose holders were all reclaimed, or all its roots if there are fewer, which
cannot be where each cell has its root. Where the holders of cells are accounted for, those cells are the ones that a
reclaimed object held last, be it a boxed value or a function. And the order in which slots, anchors and references are
listed makes no difference. -/
theorem collections_trace (s : Store) :
    (∀ h, s.collect.2.isLive h = true ↔ s.isLive h = true ∧ s.Traced h) ∧
    s.collect.1 = (s.liveSlots.filter fun slot => !s.collect.2.isLive slot.1).length ∧
    (∀ h, s.Traced h →
      s.collect.2.object? h = s.object? h ∧
      s.collect.2.rootCount h = s.rootCount h - s.heldCount s.orphans h ∧
      (s.boundCount h ≤ s.rootCount h → s.collect.2.rootCount h + s.heldCount s.orphans h = s.rootCount h)) ∧
    (∀ o, s.Balanced (o + s.boxed) → ∀ c, c ∈ s.orphans ↔
      c ∉ o ∧ (∃ h object, s.object? h = some object ∧ ¬ s.Traced h ∧ c ∈ object.cells) ∧
        ∀ h object, s.object? h = some object → s.Traced h → c ∉ object.cells) ∧
    (∀ listing : s.Listing, s.collectBy listing = s.collect) := by
  refine ⟨s.isLive_collect, s.collect_fst, fun h traced => ?_, fun o balanced => mem_orphans_iff balanced, s.collectBy_eq⟩
  exact ⟨object?_collect_of_traced traced, rootCount_collect traced, rootCount_collect_of_accounted traced⟩

end Store

/-- The object is a boxed host value. -/
def Object.isBox : Object → Bool
  | .value (.host _) => true
  | _ => false

namespace Session

/-- The store that a script leaves, from a start without families. -/
def storeAfter (script : Script) : Store := ((start ⟨1, 0, 0, [], []⟩ [] .full).run script).store

/-- Two arrays that refer to one another, and a box that alone holds the cell of a slot. -/
def cycleAndBox : Script :=
  [(.construct (.plain (.int 7)), some "v"), (.newBound (.named "v"), some "c"),
    (.construct (.plain (.host (.foreign (.splice "c")))), none), (.construct (.array [.number ⟨5⟩]), none),
    (.construct (.array [.number ⟨4⟩]), none), (.drop "c", none)]

theorem collections_trace_cycleAndBox :
    (storeAfter cycleAndBox).rootCount ⟨2⟩ = 1 ∧ (storeAfter cycleAndBox).collect.1 = 3 ∧
      (storeAfter cycleAndBox).collect.2.isLive ⟨2⟩ = true ∧ (storeAfter cycleAndBox).collect.2.rootCount ⟨2⟩ = 0 := by
  have roots : (storeAfter cycleAndBox).rootCount ⟨2⟩ = 1 := by decide +kernel
  have traced : (storeAfter cycleAndBox).Traced ⟨2⟩ := .rooted (roots ▸ Nat.one_pos)
  obtain ⟨live, removed, kept, _, _⟩ := Store.collections_trace (storeAfter cycleAndBox)
  obtain ⟨_, _, exact⟩ := kept ⟨2⟩ traced
  have cells : (storeAfter cycleAndBox).garbageCells = [⟨0⟩] := by cbv
  have lost : (storeAfter cycleAndBox).heldCount (storeAfter cycleAndBox).orphans ⟨2⟩ = 1 := by
    rw [Store.orphans, cells]
    decide +kernel
  have left := exact (by decide +kernel)
  rw [roots, lost] at left
  exact ⟨roots, removed.trans (by cbv), (live ⟨2⟩).mpr ⟨by decide +kernel, traced⟩, Nat.succ.inj left⟩

/-- A function that captures the last cell of a global, and is then defined anew. -/
def captureAndRedefine : Script :=
  [(.defineGlobal "" "v" (.plain (.int 7)), some "v"), (.newBound (.named "v"), some "c"),
    (.defineFunction "" "f" (.copying (.plain (.host (.foreign (.splice "c"))))), none), (.drop "c", none),
    (.defineFunction "" "f" .identity, none)]

/-- A cell that is boxed before the slot is there that it is bound to. -/
def boxTooEarly : Script :=
  [(.newBound (.number ⟨3⟩), some "c"), (.box (.foreign (.splice "c")), none), (.drop "c", none),
    (.defineGlobal "" "v" (.plain (.int 7)), none)]

/-- Not only boxed values give back roots when they are reclaimed, and a root that was never taken is not given back. -/
theorem roots_of_functions_and_early_cells :
    ((storeAfter captureAndRedefine).garbage.any (·.2.object.isBox) = false ∧
      (storeAfter captureAndRedefine).rootCount ⟨2⟩ = 1 ∧
      (storeAfter captureAndRedefine).collect.2.isLive ⟨2⟩ = true ∧
      (storeAfter captureAndRedefine).collect.2.rootCount ⟨2⟩ = 0) ∧
    ((storeAfter boxTooEarly).heldCount (storeAfter boxTooEarly).orphans ⟨3⟩ = 1 ∧
      (storeAfter boxTooEarly).rootCount ⟨3⟩ = 0 ∧ (storeAfter boxTooEarly).collect.2.isLive ⟨3⟩ = true ∧
      (storeAfter boxTooEarly).collect.2.rootCount ⟨3⟩ = 0) := by
  have cells : (storeAfter boxTooEarly).garbageCells = [⟨0⟩] := by cbv
  refine ⟨⟨by cbv, by cbv, by cbv, by cbv⟩, ?_, by cbv, by cbv, by cbv⟩
  rw [Store.orphans, cells]
  decide +kernel

end Session

end ForeignBridge
