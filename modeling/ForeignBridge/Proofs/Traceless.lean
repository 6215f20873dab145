import ForeignBridge.Proofs.Tracing

/-! # Conversions leave no trace

A conversion to the foreign store adds slots with plain data and cells for them, and leaves all else as it is
(`Converting`). While it runs, a new slot has a root for each new cell bound to it; in the end all new cells but the one
that it hands back are released again. So a conversion that failed, or whose cell is released, leaves new slots that
nothing keeps: the next collection reclaims them, and comes to the same store as without the conversion
(`conversions_leave_no_trace`). -/

namespace ForeignBridge

namespace Store

variable {s t : Store} {o made : Multiset CellId} {h k : Handle} {c : CellId}

/-- What tracing begins with, apart from the main namespace and slots with roots. -/
def origins (s : Store) : Option Handle × Keyed Handle × Assoc (Handle × List Handle) Handle :=
  (s.fault, s.families, s.applied)

theorem origins_updateSlot (s : Store) (h : Handle) (f : Slot → Slot) : (s.updateSlot h f).origins = s.origins :=
  apply_updateSlot s h f origins fun _ _ _ => rfl

theorem origins_inj (same : t.origins = s.origins) :
    t.fault = s.fault ∧ t.families = s.families ∧ t.applied = s.applied :=
  ⟨congrArg (·.1) same, congrArg (·.2.1) same, congrArg (·.2.2) same⟩

/-- The store `t` in the course of a conversion that began in `s`, where others hold the cells `o`. The conversion has
added slots for plain data and cells for them, and holds the cells `made` for itself. -/
structure Converting (s : Store) (o : Multiset CellId) (t : Store) (made : Multiset CellId) : Prop where
  last : s.lastId ≤ t.lastId
  cells : s.cells.size ≤ t.cells.size
  origins : t.origins = s.origins
  kept : ∀ h, s.Issued h → t.slot? h = s.slot? h
  plain : ∀ h object, ¬ s.Issued h → t.object? h = some object →
    ∃ data, object = .value data ∧ ∀ c ∈ data.references, c ∈ o
  bound : ∀ c, c.index < s.cells.size → t.binding? c = s.binding? c
  fresh : ∀ c h, s.cells.size ≤ c.index → t.binding? c = some h → ¬ s.Issued h
  counted : ∀ h, ¬ s.Issued h → t.boundCount h = s.boundCount h + t.rootCount h
  shared : ∀ c ∈ made, c.index < s.cells.size → c ∈ o
  balanced : t.Balanced (made + o + t.boxed)

/-! ### Observations of single steps -/

theorem rootCount_of_not_issued (unknown : ¬ s.Issued h) : s.rootCount h = 0 := by
  rw [rootCount, slot?_of_not_issued unknown]
  rfl

theorem rootCount_pushSlot (s : Store) (object : Object) (h : Handle) :
    (s.pushSlot object).rootCount h = s.rootCount h := by
  rw [rootCount, slot?_pushSlot]
  split
  · next new =>
    subst new
    rw [rootCount_of_not_issued s.not_issued_nextHandle]
    rfl
  · rfl

theorem rootCount_root (live : s.isLive h = true) (k : Handle) :
    (s.root h).rootCount k = s.rootCount k + if h = k then 1 else 0 := by
  obtain ⟨slot, hs⟩ := isLive_iff.mp live
  rw [rootCount, rootCount, root, slot?_updateSlot]
  split
  · next same => simp [same, hs]
  · next apart => simp [Ne.symm apart]

theorem rootCount_hold (live : s.isLive h = true) (k : Handle) :
    (s.hold h).2.rootCount k = s.rootCount k + if h = k then 1 else 0 := by
  rw [hold_eq]
  exact rootCount_root live k

theorem boundCount_hold (s : Store) (h k : Handle) :
    (s.hold h).2.boundCount k = s.boundCount k + if h = k then 1 else 0 := by
  have one : bindsTo k (some ⟨some h, 1⟩) = if h = k then 1 else 0 := by simp [bindsTo_some]
  rw [hold_eq, boundCount_pushCell, boundCount_root, one]

theorem boundCount_of_binding? (same : ∀ c, t.binding? c = s.binding? c) (h : Handle) :
    t.boundCount h = s.boundCount h := by
  rw [← card_boundCells, ← card_boundCells]
  congr 1
  ext c
  rw [mem_boundCells, mem_boundCells, same]

theorem lt_of_binding? (bound : s.binding? c = some h) : c.index < s.cells.size := by
  obtain ⟨cell, hc, _⟩ := cell?_of_binding? bound
  exact lt_of_cell? hc

theorem slot?_ext (object : s.object? h = t.object? h) (roots : s.rootCount h = t.rootCount h) :
    s.slot? h = t.slot? h := by
  unfold object? at object
  unfold rootCount at roots
  cases hs : s.slot? h with
  | none =>
    cases ht : t.slot? h with
    | none => rfl
    | some slot => simp [hs, ht] at object
  | some slot =>
    cases ht : t.slot? h with
    | none => simp [hs, ht] at object
    | some slot' =>
      obtain ⟨object, roots⟩ := slot
      obtain ⟨object', roots'⟩ := slot'
      simp_all

theorem slot?_collect_of_untraced (untraced : ¬ s.Traced h) : s.collect.2.slot? h = none := by
  cases hs : s.collect.2.slot? h with
  | none => rfl
  | some slot => exact absurd ((s.isLive_collect h).mp (isLive_iff.mpr ⟨slot, hs⟩)).2 untraced

/-! ### The steps of a conversion -/

namespace Converting

theorem start (balanced : s.Balanced (o + s.boxed)) : s.Converting o s 0 where
  last := le_rfl
  cells := le_rfl
  origins := rfl
  kept _ _ := rfl
  plain h object unknown found := absurd (issued_of_object? found) unknown
  bound _ _ := rfl
  fresh c h new bound := absurd (lt_of_binding? bound) new.not_gt
  counted h unknown := by rw [rootCount_of_not_issued unknown, add_zero]
  shared c hc := absurd hc (Multiset.notMem_zero c)
  balanced := by rwa [zero_add]

theorem share (converting : s.Converting o t made) (held : c ∈ o) : s.Converting o (t.retain c) (c ::ₘ made) where
  last := converting.last
  cells := by simpa [retain_eq, changeCell] using converting.cells
  origins := converting.origins
  kept := converting.kept
  plain := converting.plain
  bound d early := (binding?_retain t c d).trans (converting.bound d early)
  fresh d h new bound := converting.fresh d h new (by rwa [binding?_retain] at bound)
  counted h unknown := (boundCount_of_binding? (binding?_retain t c) h).trans (converting.counted h unknown)
  shared d hd early := by
    rcases Multiset.mem_cons.mp hd with rfl | hd
    · exact held
    · exact converting.shared d hd early
  balanced := by
    rw [Multiset.cons_add, Multiset.cons_add]
    exact converting.balanced.retain (Multiset.mem_add.mpr (.inl (Multiset.mem_add.mpr (.inr held))))

theorem shareAll : ∀ (cs : List CellId) {t : Store} {made : Multiset CellId}, (∀ c ∈ cs, c ∈ o) →
    s.Converting o t made → s.Converting o (t.retainAll cs) (cs + made)
  | [], _, _, _, converting => by rwa [Multiset.coe_nil, zero_add]
  | c :: cs, _, made, held, converting => by
      rw [← Multiset.cons_coe, Multiset.cons_add, ← Multiset.add_cons]
      exact shareAll cs (fun d hd => held d (List.mem_cons_of_mem c hd)) (converting.share (held c List.mem_cons_self))

/-- A new slot takes over the cells that it shares. -/
theorem push {data : Datum CellId} (held : ∀ c ∈ data.references, c ∈ o)
    (converting : s.Converting o t (data.references + made)) : s.Converting o (t.pushSlot (.value data)) made where
  last := converting.last.trans (Nat.le_succ _)
  cells := converting.cells
  origins := converting.origins
  kept h issued := by
    rw [slot?_pushSlot, if_neg]
    · exact converting.kept h issued
    · rintro rfl
      exact t.not_issued_nextHandle (issued.mono converting.last)
  plain h object unknown found := by
    rw [object?_pushSlot] at found
    split at found
    · exact ⟨data, (Option.some.inj found).symm, held⟩
    · exact converting.plain h object unknown found
  bound := converting.bound
  fresh := converting.fresh
  counted h unknown := by
    rw [rootCount_pushSlot, ← converting.counted h unknown]
    rfl
  shared c hc := converting.shared c (Multiset.mem_add.mpr (.inr hc))
  balanced := by
    have balanced := converting.balanced
    rw [add_assoc (data.references : Multiset CellId)] at balanced
    exact (Change.push (made + o) (.value data) (enters_of_plain rfl)).balanced balanced

/-- A new cell for a new slot. -/
theorem hold (converting : s.Converting o t made) (live : t.isLive h = true) (new : ¬ s.Issued h) :
    s.Converting o (t.hold h).2 ((t.hold h).1 ::ₘ made) where
  last := by
    rw [hold_eq]
    exact converting.last.trans (lastId_root t h).ge
  cells := by
    have more := converting.cells
    simp only [hold_eq, pushCell, cells_root, Array.size_push]
    omega
  origins := by
    rw [hold_eq]
    exact (origins_updateSlot t h _).trans converting.origins
  kept k issued := by
    have apart : k ≠ h := fun same => new (same ▸ issued)
    rw [hold_eq]
    show (t.root h).slot? k = _
    rw [root, slot?_updateSlot, if_neg apart]
    exact converting.kept k issued
  plain k object unknown found := by
    rw [object?_hold] at found
    exact converting.plain k object unknown found
  bound d early := by
    have apart : d ≠ t.nextCell := by
      rintro rfl
      exact converting.cells.not_gt early
    rw [binding?_hold, if_neg apart]
    exact converting.bound d early
  fresh d k late found := by
    rw [binding?_hold] at found
    split at found
    · exact Option.some.inj found ▸ new
    · exact converting.fresh d k late found
  counted k unknown := by
    rw [boundCount_hold, rootCount_hold live, converting.counted k unknown, add_assoc]
  shared d hd early := by
    rcases Multiset.mem_cons.mp hd with rfl | hd
    · have more := converting.cells
      simp only [hold_eq, nextCell] at early
      omega
    · exact converting.shared d hd early
  balanced := by
    rw [Multiset.cons_add]
    exact (Change.hold (made + o) h).balanced converting.balanced

/-- A cell that others hold as well is not let go. -/
theorem many (converting : s.Converting o t (c ::ₘ made)) (early : c.index < s.cells.size) :
    ∃ cell, t.cell? c = some cell ∧ 1 < cell.holders := by
  have held : c ∈ o := converting.shared c (Multiset.mem_cons_self c made) early
  obtain ⟨cell, hc⟩ := converting.balanced.mem_iff.mp
    (Multiset.mem_add.mpr (.inl (Multiset.mem_add.mpr (.inl (Multiset.mem_cons_self c made)))))
  refine ⟨cell, hc, ?_⟩
  have counted := converting.balanced.holders c
  rw [holderCount_of_cell? hc, Multiset.count_add, Multiset.count_add, Multiset.count_cons_self] at counted
  have other := Multiset.count_pos.mpr held
  omega

/-- The slot of a new cell has the root that goes with the cell. -/
theorem rootCount_pos (converting : s.Converting o t made) (new : s.cells.size ≤ c.index)
    (bound : t.binding? c = some h) : 0 < t.rootCount h := by
  have unknown := converting.fresh c h new bound
  have old : s.boundCells h ⊂ t.boundCells h := by
    refine Finset.ssubset_iff_subset_ne.mpr ⟨fun d hd => ?_, fun same => ?_⟩
    · have early := mem_boundCells.mp hd
      exact mem_boundCells.mpr ((converting.bound d (lt_of_binding? early)).trans early)
    · have early := mem_boundCells.mp (same ▸ mem_boundCells.mpr bound)
      exact new.not_gt (lt_of_binding? early)
  have more := Finset.card_lt_card old
  rw [card_boundCells, card_boundCells, converting.counted h unknown] at more
  omega

/-- A release gives back no root, or that of a new cell. -/
theorem givenBack_cases (converting : s.Converting o t (c ::ₘ made)) : givenBack (t.cell? c) = Handle.null ∨
    s.cells.size ≤ c.index ∧ t.binding? c = some (givenBack (t.cell? c)) := by
  by_cases early : c.index < s.cells.size
  · obtain ⟨cell, hc, many⟩ := converting.many early
    exact .inl (by simp [givenBack, hc, many])
  · cases hc : t.cell? c with
    | none => exact .inl rfl
    | some cell =>
      by_cases many : 1 < cell.holders
      · exact .inl (by simp [givenBack, many])
      · cases hb : cell.binding with
        | none => exact .inl (by simp [givenBack, hb])
        | some k => exact .inr ⟨not_lt.mp early, by simp [givenBack, hb, many, binding?_of_cell? hc]⟩

theorem release (converting : s.Converting o t (c ::ₘ made)) : s.Converting o (t.release c) made where
  last := converting.last.trans (lastId_release t c).ge
  cells := by simpa [Ledger.size_cells_release] using converting.cells
  origins := by
    rw [release_eq]
    exact (origins_updateSlot _ _ _).trans converting.origins
  kept h issued := by
    rw [slot?_release]
    rcases converting.givenBack_cases with none | ⟨new, bound⟩
    · rw [none, unroot_null]
      exact converting.kept h issued
    · have apart : h ≠ givenBack (t.cell? c) := fun same => converting.fresh c _ new bound (same ▸ issued)
      rw [unroot, slot?_updateSlot, if_neg apart]
      exact converting.kept h issued
  plain h object unknown found := converting.plain h object unknown (by rwa [object?_release] at found)
  bound d early := by
    rw [← converting.bound d early]
    by_cases same : d = c
    · subst same
      obtain ⟨cell, hc, many⟩ := converting.many early
      rw [binding?_of_cell? hc, binding?, cell?_release, if_pos rfl, hc]
      simp [dropHolder, many]
    · exact binding?_release same
  fresh d k late found := by
    obtain ⟨later, left, _⟩ := cell?_of_binding? found
    rw [binding?_release_of_left left] at found
    exact converting.fresh d k late found
  counted k unknown := by
    have there : k.isNull = false := by
      rw [Bool.eq_false_iff]
      exact fun null => unknown (Handle.isNull_iff.mp null ▸ s.issued_null)
    have before := converting.counted k unknown
    have goes := boundCount_release (s := t) (c := c) there
    rw [rootCount_release]
    split at goes
    · next same =>
      rw [if_pos same]
      rcases converting.givenBack_cases with none | ⟨new, bound⟩
      · exact absurd (same.trans none) (ne_null there)
      · have roots := converting.rootCount_pos new (same ▸ bound)
        omega
    · next apart =>
      rw [if_neg apart]
      omega
  shared d hd := converting.shared d (Multiset.mem_cons_of_mem hd)
  balanced := by
    have balanced := converting.balanced
    rw [Multiset.cons_add] at balanced
    exact (Change.release (made + o) c).balanced balanced

/-- Plain data in a new slot, with a new cell for it. -/
theorem place {data : Datum CellId} (converting : s.Converting o t made) (held : ∀ c ∈ data.references, c ∈ o) :
    s.Converting o (ConversionPolicy.place construct data t).2
      ((ConversionPolicy.place construct data t).1 ::ₘ made) := by
  have made := (converting.shareAll data.references held).push held
  unfold ConversionPolicy.place construct
  rw [allocate_eq t _ rfl]
  refine made.hold ?_ fun issued => t.not_issued_nextHandle (issued.mono converting.last)
  have next : t.nextHandle = (t.retainAll data.references).nextHandle := by
    rw [nextHandle, nextHandle, lastId_retainAll]
  exact isLive_of_object? ((object?_pushSlot _ _ _).trans (if_pos next))

theorem invariant : ConversionPolicy.ConversionInvariant o (s.Converting o) where
  share := share
  place converting _ := converting.place
  release := release

end Converting

/-! ### Afterwards -/

/-- What is left of a store after a conversion: if it succeeded, the cell that it handed back is released. -/
def discarded {ε : Type} : Except ε CellId × Store → Store
  | (.ok c, s) => s.release c
  | (.error _, s) => s

theorem converting_discarded (p : ConversionPolicy) {v : Value CellId} (balanced : s.Balanced (o + s.boxed))
    (held : ∀ c ∈ v.references, c ∈ o) : s.Converting o (discarded (p.toForeign v s)) 0 := by
  have leaves : ConversionPolicy.Leaves (s.Converting o) 0 (fun c => [c]) (p.toForeign v s) :=
    ConversionPolicy.leaves_toForeignAt Converting.invariant p 0 v held (.start balanced)
  cases result : p.toForeign v s with
  | mk outcome t =>
    cases outcome with
    | error e => exact leaves.of_error result
    | ok c => exact (leaves.of_one result).release

namespace Converting

/-- A new cell is one that the conversion holds for itself: whoever else holds a cell held it before. -/
theorem mem_made (converting : s.Converting o t made) (balanced : s.Balanced (o + s.boxed))
    (new : s.cells.size ≤ c.index) {cell : Cell} (there : t.cell? c = some cell) : c ∈ made := by
  by_contra others
  have known : c ∈ o + s.boxed := by
    have holds := converting.balanced.mem_iff.mpr ⟨cell, there⟩
    rw [add_assoc, Multiset.mem_add] at holds
    rcases Multiset.mem_add.mp (holds.resolve_left others) with outside | inside
    · exact Multiset.mem_add.mpr (.inl outside)
    · obtain ⟨k, object, found, hc⟩ := mem_boxed_iff.mp inside
      by_cases issued : s.Issued k
      · rw [object?, converting.kept k issued] at found
        exact Multiset.mem_add.mpr (.inr (mem_boxed_iff.mpr ⟨k, object, found, hc⟩))
      · obtain ⟨data, rfl, held⟩ := converting.plain k object issued found
        exact Multiset.mem_add.mpr (.inl (held c hc))
  obtain ⟨old, early⟩ := balanced.mem_iff.mp known
  exact new.not_gt (lt_of_cell? early)

/-- When the conversion holds nothing more, no new slot has a root. -/
theorem rootCount_eq_zero (converting : s.Converting o t 0) (balanced : s.Balanced (o + s.boxed))
    (unknown : ¬ s.Issued h) : t.rootCount h = 0 := by
  have same : t.boundCells h = s.boundCells h := by
    ext c
    rw [mem_boundCells, mem_boundCells]
    suffices early : t.binding? c = some h → c.index < s.cells.size by
      exact ⟨fun bound => (converting.bound c (early bound)).symm.trans bound,
        fun bound => (converting.bound c (lt_of_binding? bound)).trans bound⟩
    intro bound
    obtain ⟨cell, hc, _⟩ := cell?_of_binding? bound
    by_contra late
    exact Multiset.notMem_zero c (converting.mem_made balanced (not_lt.mp late) hc)
  have counted := converting.counted h unknown
  rw [← card_boundCells, ← card_boundCells, same] at counted
  omega

theorem object?_eq (converting : s.Converting o t made) (issued : s.Issued h) : t.object? h = s.object? h := by
  rw [object?, object?, converting.kept h issued]

theorem rootCount_eq (converting : s.Converting o t made) (issued : s.Issued h) : t.rootCount h = s.rootCount h := by
  rw [rootCount, rootCount, converting.kept h issued]

/-- What is traced was traced before. -/
theorem traced (converting : s.Converting o t 0) (balanced : s.Balanced (o + s.boxed))
    (known : ∀ h, s.Traced h → s.Issued h) (traced : t.Traced h) : s.Traced h := by
  obtain ⟨fault, families, applied⟩ := origins_inj converting.origins
  induction traced with
  | main => exact .main
  | fault pending => exact .fault (fault ▸ pending)
  | family listed => exact .family (families ▸ listed)
  | applied listed => exact .applied (applied ▸ listed)
  | @rooted h roots =>
    by_cases issued : s.Issued h
    · exact .rooted (converting.rootCount_eq issued ▸ roots)
    · rw [converting.rootCount_eq_zero balanced issued] at roots
      cases roots
  | reference _ found refers traced =>
    exact .reference traced (converting.object?_eq (known _ traced) ▸ found) refers

/-- What was traced still is. -/
theorem traced_of (converting : s.Converting o t 0) (traced : s.Traced h) : t.Traced h := by
  obtain ⟨fault, families, applied⟩ := origins_inj converting.origins
  induction traced with
  | main => exact .main
  | fault pending => exact .fault (fault.trans pending)
  | family listed => exact .family (by rwa [families])
  | applied listed => exact .applied (by rwa [applied])
  | @rooted h roots =>
    have issued : s.Issued h := by
      by_contra unknown
      rw [rootCount_of_not_issued unknown] at roots
      cases roots
    exact .rooted (converting.rootCount_eq issued ▸ roots)
  | reference _ found refers traced =>
    exact .reference traced ((converting.object?_eq (issued_of_object? found)).trans found) refers

/-- The conversion adds no cell to those that go with reclaimed objects, as all that it boxed is held elsewhere. -/
theorem mem_orphans_iff (converting : s.Converting o t 0) (balanced : s.Balanced (o + s.boxed))
    (known : ∀ h, s.Traced h → s.Issued h) (c : CellId) : c ∈ t.orphans ↔ c ∈ s.orphans := by
  have balanced' : t.Balanced (o + t.boxed) := zero_add o ▸ converting.balanced
  rw [Store.mem_orphans_iff balanced', Store.mem_orphans_iff balanced]
  refine and_congr_right fun outside => and_congr ?_ ?_
  · constructor
    · rintro ⟨h, object, found, untraced, hc⟩
      by_cases issued : s.Issued h
      · exact ⟨h, object, converting.object?_eq issued ▸ found, fun traced => untraced (converting.traced_of traced), hc⟩
      · obtain ⟨data, rfl, held⟩ := converting.plain h object issued found
        exact absurd (held c hc) outside
    · rintro ⟨h, object, found, untraced, hc⟩
      exact ⟨h, object, (converting.object?_eq (issued_of_object? found)).trans found,
        fun traced => untraced (converting.traced balanced known traced), hc⟩
  · constructor
    · intro spared h object found traced
      exact spared h object ((converting.object?_eq (issued_of_object? found)).trans found) (converting.traced_of traced)
    · intro spared h object found traced
      have early := converting.traced balanced known traced
      exact spared h object (converting.object?_eq (known h early) ▸ found) early

theorem heldCount_orphans (converting : s.Converting o t 0) (balanced : s.Balanced (o + s.boxed))
    (known : ∀ h, s.Traced h → s.Issued h) (h : Handle) : t.heldCount t.orphans h = s.heldCount s.orphans h := by
  unfold heldCount
  congr 1
  ext c
  simp only [Finset.mem_filter, Multiset.mem_toFinset, converting.mem_orphans_iff balanced known]
  refine and_congr_right fun orphan => ?_
  obtain ⟨_, ⟨k, object, found, _, hc⟩, _⟩ := (Store.mem_orphans_iff balanced c).mp orphan
  obtain ⟨cell, there⟩ := balanced.mem_iff.mp (Multiset.mem_add.mpr (.inr (mem_boxed_iff.mpr ⟨k, object, found, hc⟩)))
  rw [converting.bound c (lt_of_cell? there)]

/-- A collection comes to the same slots. -/
theorem slot?_collect (converting : s.Converting o t 0) (balanced : s.Balanced (o + s.boxed))
    (known : ∀ h, s.Traced h → s.Issued h) (h : Handle) : t.collect.2.slot? h = s.collect.2.slot? h := by
  by_cases traced : s.Traced h
  · have traced' := converting.traced_of traced
    have issued := known h traced
    apply slot?_ext
    · rw [object?_collect_of_traced traced', object?_collect_of_traced traced, converting.object?_eq issued]
    · rw [rootCount_collect traced', rootCount_collect traced, converting.rootCount_eq issued,
        converting.heldCount_orphans balanced known]
  · have untraced : ¬ t.Traced h := fun later => traced (converting.traced balanced known later)
    rw [slot?_collect_of_untraced traced, slot?_collect_of_untraced untraced]

end Converting

/-- **A conversion that fails or is discarded leaves no trace.** Whatever the policy and the value, whose cells others
hold: a conversion that failed, wherever it was, or whose cell is released, leaves every slot that was there with its
object and its roots. And where everything that is traced was handed out, a collection then comes to the same slots,
with the same objects and roots, as without the conversion. -/
theorem conversions_leave_no_trace (p : ConversionPolicy) (v : Value CellId) (s : Store) (o : Multiset CellId)
    (balanced : s.Balanced (o + s.boxed)) (held : ∀ c ∈ v.references, c ∈ o) :
    (∀ h, s.Issued h → (discarded (p.toForeign v s)).slot? h = s.slot? h) ∧
    ((∀ h, s.Traced h → s.Issued h) →
      ∀ h, (discarded (p.toForeign v s)).collect.2.slot? h = s.collect.2.slot? h) := by
  have converting := converting_discarded p balanced held
  exact ⟨converting.kept, converting.slot?_collect balanced⟩

/-- Where every handle was handed out, everything that is traced was. -/
theorem Closed.issued_of_traced (closed : s.Closed) (traced : s.Traced h) : s.Issued h := by
  induction traced with
  | main => exact closed.main
  | fault pending => exact closed.fault _ pending
  | family listed => exact closed.entries _ (mem_entries.mpr (.inl listed))
  | applied listed => exact closed.entries _ (mem_entries.mpr (.inr listed))
  | @rooted h roots =>
    by_contra unknown
    rw [rootCount_of_not_issued unknown] at roots
    cases roots
  | reference _ found refers _ => exact closed.objects _ _ found _ refers

end Store

namespace Session

/-- A global with a cell that is bound to it. -/
def heldGlobal : Script :=
  [(.defineGlobal "" "v" (.plain (.int 7)), some "v"), (.newBound (.named "v"), some "c")]

/-- The conversion of a list that nests too deep fails at its last item. -/
theorem conversions_leave_no_trace_tooDeep :
    let s := (ending ⟨1, 0, 0, [], []⟩ [] .full 10000 heldGlobal).store
    let converted := ({ ConversionPolicy.full with maxDepth := 1 } : ConversionPolicy).toForeign
      (.list [.foreign ⟨0⟩, .int 1, .list [.list []]]) s
    converted.1 = .error (.tooDeep 1) ∧ converted.2.nextHandle = ⟨4⟩ ∧ converted.2.rootCount ⟨2⟩ = 1 ∧
      ∀ h, converted.2.collect.2.slot? h = s.collect.2.slot? h := by
  intro s converted
  have sound : (ending ⟨1, 0, 0, [], []⟩ [] .full 10000 heldGlobal).Sound :=
    sound_ending (by decide +kernel) (by decide +kernel)
  have failed : converted = (.error (.tooDeep 1), converted.2) := Prod.ext (by decide +kernel) rfl
  have left : Store.discarded converted = converted.2 := by
    rw [failed]
    rfl
  obtain ⟨kept, same⟩ : (∀ h, s.Issued h → (Store.discarded converted).slot? h = s.slot? h) ∧ _ :=
    Store.conversions_leave_no_trace _ _ s _ sound.balanced (by decide +kernel)
  have later := same fun h traced => sound.closed.issued_of_traced traced
  change ∀ h, (Store.discarded converted).collect.2.slot? h = _ at later
  rw [left] at kept later
  have roots : s.rootCount ⟨2⟩ = 1 := by decide +kernel
  have there : s.Issued ⟨2⟩ := show 2 ≤ s.lastId by decide +kernel
  refine ⟨by decide +kernel, by decide +kernel, ?_, later⟩
  rw [Store.rootCount, kept ⟨2⟩ there]
  exact roots

/-- A global that refers to a slot which is not there yet. -/
def earlyReference : Script := [(.defineGlobal "" "a" (.array [.number ⟨4⟩]), none)]

/-- A conversion may make the slots that something refers to already; then they stay. -/
theorem early_references_keep_conversions :
    let s := storeAfter earlyReference
    let t := Store.discarded (ConversionPolicy.full.toForeign (.list [.int 1]) s)
    s.collect.2.isLive ⟨4⟩ = false ∧ t.collect.2.isLive ⟨4⟩ = true := by
  constructor <;> cbv

end Session

end ForeignBridge
