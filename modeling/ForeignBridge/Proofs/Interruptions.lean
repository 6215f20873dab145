import ForeignBridge.Proofs.Activity
import ForeignBridge.Proofs.Encodings
import ForeignBridge.Proofs.Namespaces
import ForeignBridge.Proofs.RegistryRuns
import ForeignBridge.Proofs.Traceless

/-! # Two runs of a conversion

A runtime may collect before it makes a slot. To say that a conversion does not mind, it is run twice, with and without
the collections. Both runs take the same steps (`Spared`): the collections may take slots and cells that were there, but
whatever can be reached from the cells that others hold, and from those of the conversion, is the same in both stores.

A collection in the course of a conversion keeps this (`Building.collect`). Each slot that the conversion has made can be
reached from one of its cells, and the slots of these cells, as those of the cells that others hold, keep a root: roots
go only with the cells that are bound to the slot (`Accounts`). -/

namespace ForeignBridge

namespace Store

variable {s t u w : Store} {o made held : Multiset CellId} {h k : Handle} {c d : CellId}

/-! ### Roots and bindings -/

theorem heldCount_congr (same : ∀ c ∈ o, t.binding? c = s.binding? c) : t.heldCount o h = s.heldCount o h := by
  rw [heldCount, heldCount, Finset.filter_congr fun c hc => by rw [same c (Multiset.mem_toFinset.mp hc)]]

/-- A slot that is reclaimed has no roots. -/
theorem rootCount_sweep (s : Store) (h : Handle) : s.sweep.rootCount h = s.rootCount h := by
  by_cases reached : s.Reached h
  · rw [rootCount, rootCount, slot?_sweep_of_reached reached]
  · have unrooted : ¬ 0 < s.rootCount h := fun roots => reached (traced_iff.mp (.rooted roots))
    rw [rootCount, slot?_sweep_of_not_reached reached]
    exact (Nat.eq_zero_of_not_pos unrooted).symm

/-- A cell that somebody else holds as well stays bound as it is. -/
theorem Balanced.binding?_release (balanced : s.Balanced (c ::ₘ held)) (hd : d ∈ held) :
    (s.release c).binding? d = s.binding? d := by
  obtain ⟨cell, left⟩ := balanced.release.mem_iff.mp hd
  exact binding?_release_of_left left

theorem Balanced.binding?_releaseAll {cs : List CellId} (balanced : s.Balanced (cs + held)) (hd : d ∈ held) :
    (s.releaseAll cs).binding? d = s.binding? d := by
  induction cs generalizing s with
  | nil => rfl
  | cons c cs ih =>
    rw [← Multiset.cons_coe, Multiset.cons_add] at balanced
    exact (ih balanced.release).trans (balanced.binding?_release (Multiset.mem_add.mpr (.inr hd)))

/-- Since `s`, where others hold the cells `o`, a slot has got a root with each cell that was bound to it, and lost one
with each that went. This is said of the slots that had a root for each cell that only the store holds. -/
def Accounts (s : Store) (o : Multiset CellId) (t : Store) : Prop :=
  ∀ h, h.isNull = false → s.boundCount h ≤ s.rootCount h + s.heldCount o h →
    t.rootCount h + s.boundCount h = s.rootCount h + t.boundCount h

namespace Accounts

theorem retain (accounts : s.Accounts o t) (c : CellId) : s.Accounts o (t.retain c) := by
  intro h there covered
  rw [boundCount_of_binding? (binding?_retain t c)]
  exact accounts h there covered

theorem push (accounts : s.Accounts o t) (object : Object) : s.Accounts o (t.pushSlot object) := by
  intro h there covered
  rw [rootCount_pushSlot]
  exact accounts h there covered

theorem hold (accounts : s.Accounts o t) (live : t.isLive h = true) : s.Accounts o (t.hold h).2 := by
  intro k there covered
  have before := accounts k there covered
  rw [rootCount_hold live, boundCount_hold]
  omega

/-- The root of a cell goes with the cell, and it is there: the cells that others hold stay, and the slot had a root for
each of the rest. -/
theorem release (accounts : s.Accounts o t) (balanced : t.Balanced (c ::ₘ held)) (outer : o ≤ held)
    (same : ∀ d ∈ o, t.binding? d = s.binding? d) : s.Accounts o (t.release c) := by
  intro h there covered
  have before := accounts h there covered
  have goes := boundCount_release (s := t) (c := c) there
  have stay : (t.release c).heldCount o h = s.heldCount o h := heldCount_congr fun d hd =>
    (balanced.binding?_release (Multiset.mem_of_le outer hd)).trans (same d hd)
  have bound := (t.release c).heldCount_le_boundCount (h := h) o
  rw [rootCount_release]
  omega

theorem releaseAll {cs : List CellId} (accounts : s.Accounts o t) (balanced : t.Balanced (cs + held)) (outer : o ≤ held)
    (same : ∀ d ∈ o, t.binding? d = s.binding? d) : s.Accounts o (t.releaseAll cs) := by
  induction cs generalizing t with
  | nil => exact accounts
  | cons c cs ih =>
    rw [← Multiset.cons_coe, Multiset.cons_add] at balanced
    have outer' : o ≤ (cs : Multiset CellId) + held := outer.trans (Multiset.le_add_left _ _)
    exact ih (accounts.release balanced outer' same) balanced.release fun d hd =>
      (balanced.binding?_release (Multiset.mem_of_le outer' hd)).trans (same d hd)

theorem collect (accounts : s.Accounts o t) (balanced : t.Balanced (made + o + t.boxed))
    (same : ∀ d ∈ o, t.binding? d = s.binding? d) : s.Accounts o t.collect.2 := by
  have swept : s.Accounts o t.sweep := by
    intro h there covered
    have bound : t.sweep.boundCount h = t.boundCount h := by rw [boundCount, boundCount, cells_sweep]
    rw [rootCount_sweep, bound]
    exact accounts h there covered
  have balanced' := balanced.sweep
  rw [add_assoc (t.garbageCells : Multiset CellId)] at balanced'
  rw [collect_eq]
  refine swept.releaseAll balanced' ?_ fun d hd => (binding?_congr (cells_sweep t) d).trans (same d hd)
  exact (Multiset.le_add_left o made).trans (Multiset.le_add_right _ _)

end Accounts

/-! ### What can be reached -/

theorem Reaches.mono (objects : ∀ h object, s.object? h = some object → t.object? h = some object)
    (reaches : s.Reaches h k) : t.Reaches h k := by
  refine Relation.ReflTransGen.mono (fun a b step => ?_) _ _ reaches
  obtain ⟨object, found, refers⟩ := mem_successors.mp step
  exact mem_successors.mpr ⟨object, objects a object found, refers⟩

theorem reaches_congr (same : ∀ h, t.object? h = s.object? h) : t.Reaches h k ↔ s.Reaches h k :=
  ⟨.mono fun h _ found => same h ▸ found, .mono fun h _ found => (same h).symm ▸ found⟩

/-- A new slot leads to itself, or to where the cells lead that its parts are read from. -/
theorem Reaches.of_pushSlot {object : Object} (parts : ∀ a ∈ object.handles, ∃ d ∈ held, a = s.read d)
    (reaches : (s.pushSlot object).Reaches h k) (start : h = s.nextHandle ∨ ∃ d ∈ held, s.Reaches (s.read d) h) :
    k = s.nextHandle ∨ ∃ d ∈ held, s.Reaches (s.read d) k := by
  induction reaches with
  | refl => exact start
  | @tail a b _ last ih =>
    obtain ⟨next, found, refers⟩ := mem_successors.mp last
    rw [object?_pushSlot] at found
    split at found
    · obtain rfl := Option.some.inj found
      obtain ⟨d, hd, rfl⟩ := parts b refers
      exact .inr ⟨d, hd, .refl⟩
    · next apart =>
      obtain ⟨d, hd, path⟩ := ih.resolve_left apart
      exact .inr ⟨d, hd, path.tail (mem_successors.mpr ⟨next, found, refers⟩)⟩

/-! ### New slots -/

open ConversionPolicy in
theorem place_eq (data : Datum CellId) (s : Store) :
    place construct data s = ((s.retainAll data.references).pushSlot (.value data)).hold s.nextHandle := by
  unfold place construct
  rw [allocate_eq _ _ rfl]
  rfl

open ConversionPolicy in
theorem issued_place {data : Datum CellId} (issued : (place construct data s).2.Issued h) :
    s.Issued h ∨ h = s.nextHandle := by
  obtain ⟨raw⟩ := h
  have last : (place construct data s).2.lastId = s.lastId + 1 := by
    rw [place_eq, hold_eq]
    show (root _ _).lastId = _
    rw [lastId_root, lastId_pushSlot, lastId_retainAll]
  rw [Issued, last] at issued
  rw [Issued, nextHandle, Handle.mk.injEq]
  exact Nat.le_or_eq_of_le_succ issued

/-! ### The two runs -/

/-- Others hold the cells `o`, and the slot of every cell is rooted. The slot of a cell that others hold has more roots
than there are cells bound to it that only the store holds, so it stays rooted when these go. Where each cell has a root
of its own, this is always so (`Anchored.of_roots`, `Anchored.of_sound`). -/
structure Anchored (s : Store) (o : Multiset CellId) : Prop where
  balanced : s.Balanced (o + s.boxed)
  rooted : ∀ c h, s.binding? c = some h → h.isNull = false → 0 < s.rootCount h
  lasting : ∀ c ∈ o, ∀ h, s.binding? c = some h → h.isNull = false → s.boundCount h < s.rootCount h + s.heldCount o h

theorem Anchored.boundCount_eq_zero (anchored : s.Anchored o) (unknown : ¬ s.Issued h) : s.boundCount h = 0 := by
  have there : h.isNull = false := Bool.eq_false_iff.mpr fun null => unknown (Handle.isNull_iff.mp null ▸ s.issued_null)
  rw [← card_boundCells, Finset.card_eq_zero, Finset.eq_empty_iff_forall_notMem]
  intro c hc
  have roots := anchored.rooted c h (mem_boundCells.mp hc) there
  rw [rootCount_of_not_issued unknown] at roots
  cases roots

/-- Where each cell has a root of its own, the slots of the held cells stay rooted. -/
theorem Anchored.of_roots (balanced : s.Balanced (o + s.boxed))
    (roots : ∀ h, h.isNull = false → s.boundCount h ≤ s.rootCount h) : s.Anchored o where
  balanced := balanced
  rooted _ h bound there := (boundCount_pos bound).trans_le (roots h there)
  lasting c hc h bound there := by
    have counted : 0 < s.heldCount o h :=
      Finset.card_pos.mpr ⟨c, Finset.mem_filter.mpr ⟨Multiset.mem_toFinset.mpr hc, bound⟩⟩
    have covered := roots h there
    omega

/-- Where roots were given back only with their cells, it is enough that the slots of the cells are there. -/
theorem Anchored.of_sound {r : Multiset Handle} (sound : Ledger.Sound ⟨s, o, r, 0⟩)
    (live : ∀ c h, s.binding? c = some h → h.isNull = false → s.isLive h = true) : s.Anchored o := by
  refine .of_roots sound.balanced fun h there => ?_
  by_cases bound : ∃ c, s.binding? c = some h
  · obtain ⟨c, bound⟩ := bound
    obtain ⟨slot, hs⟩ := isLive_iff.mp (live c h bound there)
    rw [rootCount_of_slot? hs, sound.counts h (Multiset.notMem_zero h) slot hs]
    exact Nat.le_add_right _ _
  · have none : s.boundCells h = ∅ :=
      Finset.eq_empty_iff_forall_notMem.mpr fun c hc => bound ⟨c, mem_boundCells.mp hc⟩
    rw [← card_boundCells, none]
    exact Nat.zero_le _

/-- A conversion that began in `s`, where others hold the cells `o`, has come to `t`, and to `w` if it is interrupted by
collections. It holds the cells `made` for itself. -/
structure Spared (s : Store) (o : Multiset CellId) (t w : Store) (made : Multiset CellId) : Prop where
  anchored : s.Anchored o
  plain : s.Converting o t made
  balanced : w.Balanced (made + o + w.boxed)
  accounts : s.Accounts o w
  last : w.lastId = t.lastId
  cells : w.cells.size = t.cells.size
  live : ∀ h, ¬ s.Issued h → t.Issued h → t.isLive h = true
  within : ∀ h object, w.object? h = some object → t.object? h = some object
  fresh : ∀ h, ¬ s.Issued h → w.object? h = t.object? h
  agree : ∀ c cell, w.cell? c = some cell → w.binding? c = t.binding? c
  spared : ∀ c ∈ made + o, ∀ k, t.Reaches (t.read c) k → w.object? k = t.object? k

namespace Spared

theorem start (anchored : s.Anchored o) : s.Spared o s s 0 where
  anchored := anchored
  plain := .start anchored.balanced
  balanced := by
    rw [zero_add]
    exact anchored.balanced
  accounts _ _ _ := rfl
  last := rfl
  cells := rfl
  live _ unknown issued := absurd issued unknown
  within _ _ found := found
  fresh _ _ := rfl
  agree _ _ _ := rfl
  spared _ _ _ _ := rfl

theorem nextHandle_eq (spared : s.Spared o t w made) : w.nextHandle = t.nextHandle := by
  rw [nextHandle, nextHandle, spared.last]

theorem nextCell_eq (spared : s.Spared o t w made) : w.nextCell = t.nextCell := by
  rw [nextCell, nextCell, spared.cells]

theorem isLive_of_new (spared : s.Spared o t w made) (new : ¬ s.Issued h) (live : t.isLive h = true) :
    w.isLive h = true := by
  obtain ⟨slot, hs⟩ := isLive_iff.mp live
  exact isLive_of_object? ((spared.fresh h new).trans (object?_eq_some.mpr ⟨slot, hs, rfl⟩))

theorem binding?_eq (spared : s.Spared o t w made) (hc : c ∈ made + o) : w.binding? c = t.binding? c := by
  obtain ⟨cell, there⟩ := spared.balanced.mem_iff.mp (Multiset.mem_add.mpr (.inl hc))
  exact spared.agree c cell there

theorem read_eq (spared : s.Spared o t w made) (hc : c ∈ made + o) : w.read c = t.read c :=
  read_congr (spared.binding?_eq hc)

/-- The cells that others hold stay bound as they were. -/
theorem outer (spared : s.Spared o t w made) (hc : c ∈ o) : w.binding? c = s.binding? c := by
  obtain ⟨cell, there⟩ := spared.anchored.balanced.mem_iff.mp (Multiset.mem_add.mpr (.inl hc))
  exact (spared.binding?_eq (Multiset.mem_add.mpr (.inr hc))).trans (spared.plain.bound c (lt_of_cell? there))

/-- What is reached from the cells in one run is reached in the other. -/
theorem reaches (spared : s.Spared o t w made) (hc : c ∈ made + o) (reaches : t.Reaches (t.read c) k) :
    w.Reaches (w.read c) k := by
  rw [spared.read_eq hc]
  induction reaches with
  | refl => exact .refl
  | @tail a b before last path =>
    refine path.tail ?_
    rw [successors, spared.spared c hc a before]
    exact last

/-- The slot of a cell has a root: another than those of the cells that a collection may take. -/
theorem rootCount_pos (spared : s.Spared o t w made) (hc : c ∈ made + o) (bound : w.binding? c = some h)
    (there : h.isNull = false) : 0 < w.rootCount h := by
  have accounts := spared.accounts h there
  by_cases early : c.index < s.cells.size
  · have outside : c ∈ o := (Multiset.mem_add.mp hc).elim (spared.plain.shared c · early) id
    have lasting := spared.anchored.lasting c outside h ((spared.outer outside).symm.trans bound) there
    have same : w.heldCount o h = s.heldCount o h := heldCount_congr fun d hd => spared.outer hd
    have held := w.heldCount_le_boundCount (h := h) o
    omega
  · have unknown : ¬ s.Issued h :=
      spared.plain.fresh c h (not_lt.mp early) ((spared.binding?_eq hc).symm.trans bound)
    have new := spared.anchored.boundCount_eq_zero unknown
    have count := boundCount_pos bound
    omega

/-! #### Collections -/

/-- What is reached from the cells is kept by a collection. -/
theorem object?_collect (spared : s.Spared o t w made) (hc : c ∈ made + o) (reaches : t.Reaches (t.read c) k) :
    w.collect.2.object? k = t.object? k := by
  rw [← spared.spared c hc k reaches]
  have reaches' := spared.reaches hc reaches
  by_cases null : (w.read c).isNull = true
  · rw [Handle.isNull_iff.mp null] at reaches'
    rw [eq_of_reaches_dead (object?_null w) reaches']
    rfl
  · cases bound : w.binding? c with
    | none => exact absurd (congrArg Handle.isNull (read_of_binding?_none bound)) null
    | some h =>
      rw [read_of_binding? bound] at reaches' null
      have roots := spared.rootCount_pos hc bound (Bool.eq_false_iff.mpr null)
      obtain ⟨a, anchor, path⟩ := traced_iff.mp (.rooted roots)
      exact object?_collect_of_traced (traced_iff.mpr ⟨a, anchor, path.trans reaches'⟩)

/-! #### Steps of the conversion -/

theorem share (spared : s.Spared o t w made) (hc : c ∈ o) : s.Spared o (t.retain c) (w.retain c) (c ::ₘ made) where
  anchored := spared.anchored
  plain := spared.plain.share hc
  balanced := by
    rw [Multiset.cons_add, Multiset.cons_add]
    exact spared.balanced.retain (Multiset.mem_add.mpr (.inl (Multiset.mem_add.mpr (.inr hc))))
  accounts := spared.accounts.retain c
  last := spared.last
  cells := by simpa [retain_eq, changeCell] using spared.cells
  live := spared.live
  within := spared.within
  fresh := spared.fresh
  agree d cell there := by
    have kept : Ledger.Persists w (w.retain c) d :=
      Ledger.persists_changeCell w d c (fun cell => { cell with holders := cell.holders + 1 }) fun _ _ _ bound => bound
    obtain ⟨before, there, _⟩ := kept cell there
    rw [binding?_retain, binding?_retain]
    exact spared.agree d before there
  spared d hd k reaches := by
    have known : d ∈ made + o := by
      rw [Multiset.cons_add] at hd
      rcases Multiset.mem_cons.mp hd with rfl | hd
      · exact Multiset.mem_add.mpr (.inr hc)
      · exact hd
    rw [read_congr (binding?_retain t c d)] at reaches
    exact spared.spared d known k reaches

theorem shareAll : ∀ (cs : List CellId) {t w : Store} {made : Multiset CellId}, (∀ c ∈ cs, c ∈ o) →
    s.Spared o t w made → s.Spared o (t.retainAll cs) (w.retainAll cs) (cs + made)
  | [], _, _, _, _, spared => by rwa [Multiset.coe_nil, zero_add]
  | c :: cs, _, _, made, outside, spared => by
      rw [← Multiset.cons_coe, Multiset.cons_add, ← Multiset.add_cons]
      exact shareAll cs (fun d hd => outside d (List.mem_cons_of_mem c hd)) (spared.share (outside c List.mem_cons_self))

/-- What is reached through a new slot is the same as well. -/
theorem object?_push (spared : s.Spared o t w made) {object : Object}
    (parts : ∀ a ∈ object.handles, ∃ d ∈ made + o, a = t.read d)
    (start : h = t.nextHandle ∨ ∃ d ∈ made + o, t.Reaches (t.read d) h)
    (reaches : (t.pushSlot object).Reaches h k) : (w.pushSlot object).object? k = (t.pushSlot object).object? k := by
  rw [object?_pushSlot, object?_pushSlot, spared.nextHandle_eq]
  split
  · rfl
  · next apart =>
    obtain ⟨d, hd, path⟩ := (reaches.of_pushSlot parts start).resolve_left apart
    exact spared.spared d hd k path

theorem push {data : Datum CellId} (spared : s.Spared o t w (data.references + made))
    (outside : ∀ c ∈ data.references, c ∈ o) (parts : ∀ a ∈ data.handles, ∃ d ∈ made + o, a = t.read d) :
    s.Spared o (t.pushSlot (.value data)) (w.pushSlot (.value data)) made where
  anchored := spared.anchored
  plain := spared.plain.push outside
  balanced := by
    have balanced := spared.balanced
    rw [add_assoc (data.references : Multiset CellId)] at balanced
    exact (Change.push (made + o) (.value data) (enters_of_plain rfl)).balanced balanced
  accounts := spared.accounts.push _
  last := by rw [lastId_pushSlot, lastId_pushSlot, spared.last]
  cells := spared.cells
  live k unknown issued := by
    rw [Issued, lastId_pushSlot] at issued
    rw [isLive, slot?_pushSlot]
    split
    · rfl
    · next apart =>
      have early := (Nat.le_or_eq_of_le_succ issued).resolve_right fun last => apart (congrArg Handle.mk last)
      exact spared.live k unknown early
  within k object found := by
    rw [object?_pushSlot, spared.nextHandle_eq] at found
    rw [object?_pushSlot]
    split at found
    · next new => rwa [if_pos new]
    · next apart =>
      rw [if_neg apart]
      exact spared.within k object found
  fresh k unknown := by
    rw [object?_pushSlot, object?_pushSlot, spared.nextHandle_eq, spared.fresh k unknown]
  agree := spared.agree
  spared c hc k reaches := by
    have wider {d : CellId} (hd : d ∈ made + o) : d ∈ data.references + made + o := by
      rw [add_assoc]
      exact Multiset.mem_add.mpr (.inr hd)
    exact spared.object?_push (fun a ha => (parts a ha).imp fun d hd => ⟨wider hd.1, hd.2⟩)
      (.inr ⟨c, wider hc, .refl⟩) reaches

/-- A new cell for a slot that is there in both runs, as is all that can be reached from it. -/
theorem hold (spared : s.Spared o t w made) (live : t.isLive h = true) (new : ¬ s.Issued h)
    (same : ∀ k, t.Reaches h k → w.object? k = t.object? k) :
    s.Spared o (t.hold h).2 (w.hold h).2 ((t.hold h).1 ::ₘ made) where
  anchored := spared.anchored
  plain := spared.plain.hold live new
  balanced := by
    have balanced := (Change.hold (made + o) h).balanced spared.balanced
    rw [hold_eq] at balanced ⊢
    rw [hold_eq, Multiset.cons_add, ← spared.nextCell_eq]
    exact balanced
  accounts := spared.accounts.hold (spared.isLive_of_new new live)
  last := by simpa [hold_eq, pushCell] using spared.last
  cells := by simpa [hold_eq, pushCell] using spared.cells
  live k unknown issued := by
    rw [hold_eq] at issued ⊢
    exact (isLive_updateSlot t h k _).trans (spared.live k unknown (by rwa [Issued, pushCell, lastId_root] at issued))
  within k object found := by
    rw [object?_hold] at found ⊢
    exact spared.within k object found
  fresh k unknown := by
    rw [object?_hold, object?_hold]
    exact spared.fresh k unknown
  agree d cell there := by
    rw [binding?_hold, binding?_hold, spared.nextCell_eq]
    rw [cell?_hold, spared.nextCell_eq] at there
    split at there
    · next newest => rw [if_pos newest, if_pos newest]
    · next apart =>
      rw [if_neg apart, if_neg apart]
      exact spared.agree d cell there
  spared d hd k reaches := by
    rw [object?_hold, object?_hold]
    rw [reaches_congr (object?_hold t h)] at reaches
    rw [Multiset.cons_add] at hd
    by_cases newest : d = t.nextCell
    · rw [read_of_binding? ((binding?_hold t h d).trans (if_pos newest))] at reaches
      exact same k reaches
    · rw [read_congr ((binding?_hold t h d).trans (if_neg newest))] at reaches
      have known : d ∈ made + o := (Multiset.mem_cons.mp hd).resolve_left (by rwa [hold_eq])
      exact spared.spared d known k reaches

/-- What is boxed in the interrupted run is boxed in the other. -/
theorem mem_boxed (spared : s.Spared o t w made) (there : d ∈ held + w.boxed) : d ∈ held + t.boxed := by
  rcases Multiset.mem_add.mp there with known | boxed
  · exact Multiset.mem_add.mpr (.inl known)
  · obtain ⟨k, object, found, hd⟩ := mem_boxed_iff.mp boxed
    exact Multiset.mem_add.mpr (.inr (mem_boxed_iff.mpr ⟨k, object, spared.within k object found, hd⟩))

/-- A cell that is held elsewhere as well stays bound when the conversion releases it. -/
theorem binding?_release (spared : s.Spared o t w (c ::ₘ made)) (hd : d ∈ made + o + t.boxed) :
    (t.release c).binding? d = t.binding? d := by
  have balanced := spared.plain.balanced
  rw [Multiset.cons_add, Multiset.cons_add] at balanced
  exact balanced.binding?_release hd

theorem release (spared : s.Spared o t w (c ::ₘ made)) : s.Spared o (t.release c) (w.release c) made where
  anchored := spared.anchored
  plain := spared.plain.release
  balanced := by
    have balanced := spared.balanced
    rw [Multiset.cons_add] at balanced
    exact (Change.release (made + o) c).balanced balanced
  accounts := by
    have balanced := spared.balanced
    rw [Multiset.cons_add, Multiset.cons_add] at balanced
    refine spared.accounts.release balanced ?_ fun d hd => spared.outer hd
    exact (Multiset.le_add_left o made).trans (Multiset.le_add_right _ _)
  last := by rw [lastId_release, lastId_release, spared.last]
  cells := by rw [Ledger.size_cells_release, Ledger.size_cells_release, spared.cells]
  live k unknown issued := by
    rw [Issued, lastId_release] at issued
    exact (Ledger.isLive_release t c k).trans (spared.live k unknown issued)
  within k object found := by
    rw [object?_release] at found ⊢
    exact spared.within k object found
  fresh k unknown := by
    rw [object?_release, object?_release]
    exact spared.fresh k unknown
  agree d cell left := by
    have balanced := spared.balanced
    rw [Multiset.cons_add, Multiset.cons_add] at balanced
    obtain ⟨before, there⟩ := cell?_of_releaseAll [c] left
    have kept := spared.mem_boxed (balanced.release.mem_iff.mpr ⟨cell, left⟩)
    rw [binding?_release_of_left left, spared.binding?_release kept]
    exact spared.agree d before there
  spared d hd k reaches := by
    have same := spared.binding?_release (Multiset.mem_add.mpr (.inl hd))
    rw [read_congr same, reaches_congr (object?_release t c)] at reaches
    rw [object?_release, object?_release]
    refine spared.spared d ?_ k reaches
    rw [Multiset.cons_add]
    exact Multiset.mem_cons_of_mem hd

theorem releaseAll : ∀ (cs : List CellId) {t w : Store}, s.Spared o t w (cs + made) →
    s.Spared o (t.releaseAll cs) (w.releaseAll cs) made
  | [], _, _, spared => by rwa [Multiset.coe_nil, zero_add] at spared
  | c :: cs, _, _, spared => by
      rw [← Multiset.cons_coe, Multiset.cons_add] at spared
      exact releaseAll cs spared.release

open ConversionPolicy in
/-- Both runs make the same slot and the same cell for it. -/
theorem place (data : Datum CellId) (spared : s.Spared o t w made) (outside : ∀ c ∈ data.references, c ∈ o)
    (parts : ∀ a ∈ data.handles, ∃ d ∈ made + o, a = t.read d) :
    (place construct data w).1 = (place construct data t).1 ∧
      s.Spared o (place construct data t).2 (place construct data w).2 ((place construct data t).1 ::ₘ made) := by
  have shared := spared.shareAll data.references outside
  have parts' : ∀ a ∈ data.handles, ∃ d ∈ made + o, a = (t.retainAll data.references).read d := fun a ha =>
    (parts a ha).imp fun d hd =>
      ⟨hd.1, hd.2.trans (read_congr (binding?_retainAll d data.references t)).symm⟩
  have pushed := shared.push outside parts'
  have next : (t.retainAll data.references).nextHandle = t.nextHandle := by
    rw [nextHandle, nextHandle, lastId_retainAll]
  have live : ((t.retainAll data.references).pushSlot (.value data)).isLive t.nextHandle = true :=
    isLive_of_object? ((object?_pushSlot _ _ _).trans (if_pos next.symm))
  have same : ∀ k, ((t.retainAll data.references).pushSlot (.value data)).Reaches t.nextHandle k →
      ((w.retainAll data.references).pushSlot (.value data)).object? k =
        ((t.retainAll data.references).pushSlot (.value data)).object? k := by
    refine fun k reaches => shared.object?_push (fun a ha => ?_) (.inl next.symm) reaches
    obtain ⟨d, hd, rfl⟩ := parts' a ha
    exact ⟨d, by rw [add_assoc]; exact Multiset.mem_add.mpr (.inr hd), rfl⟩
  have new : ¬ s.Issued t.nextHandle := fun issued => t.not_issued_nextHandle (issued.mono spared.plain.last)
  rw [place_eq, place_eq, spared.nextHandle_eq]
  refine ⟨?_, pushed.hold live new same⟩
  rw [hold_eq, hold_eq, nextCell, nextCell]
  exact congrArg CellId.mk pushed.cells

end Spared

/-! ### Slots under construction -/

/-- In the course of a conversion, each slot that it has made can be reached from one of its cells. -/
structure Building (s : Store) (o : Multiset CellId) (t w : Store) (made : Multiset CellId) : Prop
    extends Spared s o t w made where
  covered : ∀ h, ¬ s.Issued h → t.Issued h → ∃ c ∈ made, t.Reaches (t.read c) h

namespace Building

theorem start (anchored : s.Anchored o) : s.Building o s s 0 where
  toSpared := .start anchored
  covered _ unknown issued := absurd issued unknown

/-- A collection spares all that the conversion has made. -/
theorem collect (building : s.Building o t w made) : s.Building o t w.collect.2 made where
  anchored := building.anchored
  plain := building.plain
  balanced := acts_collect.balanced building.balanced
  accounts := building.accounts.collect building.balanced fun _ hd => building.outer hd
  last := (lastId_collect w).trans building.last
  cells := by
    rw [collect_eq, size_cells_releaseAll, cells_sweep]
    exact building.cells
  live := building.live
  within h object found := building.within h object (object?_of_collect found)
  fresh h unknown := by
    by_cases issued : t.Issued h
    · obtain ⟨c, hc, reaches⟩ := building.covered h unknown issued
      exact building.object?_collect (Multiset.mem_add.mpr (.inl hc)) reaches
    · have issued' : ¬ w.collect.2.Issued h := by rwa [Issued, lastId_collect, building.last]
      rw [object?_of_not_issued issued, object?_of_not_issued issued']
  agree c cell left := by
    rw [collect_eq] at left ⊢
    obtain ⟨cell', there⟩ := cell?_of_releaseAll _ left
    rw [binding?_releaseAll_of_left _ left, binding?_congr (cells_sweep w)]
    exact building.agree c cell' (by rwa [cell?_congr (cells_sweep w)] at there)
  spared _ hc _ reaches := building.object?_collect hc reaches
  covered := building.covered

theorem share (building : s.Building o t w made) (hc : c ∈ o) : s.Building o (t.retain c) (w.retain c) (c ::ₘ made) where
  toSpared := building.toSpared.share hc
  covered h unknown issued := by
    obtain ⟨d, hd, reaches⟩ := building.covered h unknown issued
    refine ⟨d, Multiset.mem_cons_of_mem hd, ?_⟩
    rw [read_congr (binding?_retain t c d)]
    exact reaches

theorem lt_of_mem (building : s.Building o t w made) (hc : c ∈ made) : c.index < t.cells.size := by
  obtain ⟨cell, there⟩ := building.plain.balanced.mem_iff.mp
    (Multiset.mem_add.mpr (.inl (Multiset.mem_add.mpr (.inl hc))))
  exact lt_of_cell? there

open ConversionPolicy

section place

variable {data : Datum CellId} {parts : List CellId}

/-- A new slot leads to its parts, so the cells that keep the parts are not needed any more. -/
theorem covered_place (building : s.Building o t w (parts + made)) (all : ∀ c ∈ parts, t.read c ∈ data.handles)
    (unknown : ¬ s.Issued h) (issued : (place construct data t).2.Issued h) :
    ∃ c ∈ (place construct data t).1 ::ₘ made,
      (place construct data t).2.Reaches ((place construct data t).2.read c) h := by
  have keeps := keeps_place data t
  have object := object?_place data t
  have read := read_of_binding? (binding?_place data t)
  have objects : ∀ k object, t.object? k = some object → (place construct data t).2.object? k = some object :=
    fun k object found => (keeps.object k (issued_of_object? found)).trans found
  rcases issued_place issued with early | rfl
  · obtain ⟨c, hc, reaches⟩ := building.covered h unknown early
    have there := building.lt_of_mem hc
    rcases Multiset.mem_add.mp hc with part | kept
    · refine ⟨_, Multiset.mem_cons_self _ _, ?_⟩
      rw [read]
      exact .head (mem_successors.mpr ⟨_, object, all c part⟩) (reaches.mono objects)
    · refine ⟨c, Multiset.mem_cons_of_mem kept, ?_⟩
      rw [keeps.read there]
      exact reaches.mono objects
  · refine ⟨_, Multiset.mem_cons_self _ _, ?_⟩
    rw [read]
    exact .refl

theorem place (building : s.Building o t w made) (outside : ∀ c ∈ data.references, c ∈ o) (flat : data.handles = []) :
    (place construct data w).1 = (place construct data t).1 ∧
      s.Building o (place construct data t).2 (place construct data w).2 ((place construct data t).1 ::ₘ made) := by
  obtain ⟨same, spared⟩ := building.toSpared.place data outside fun a ha => by simp [flat] at ha
  have building' : s.Building o t w (([] : List CellId) + made) := by rwa [Multiset.coe_nil, zero_add]
  exact ⟨same, spared, fun h unknown issued => building'.covered_place (fun c hc => by cases hc) unknown issued⟩

/-- A container is made of its parts, and their cells go. -/
theorem placeContainer (building : s.Building o t w (parts + made)) (plain : data.references = [])
    (handles : data.handles = parts.map t.read) :
    (placeContainer construct data parts w).1 = (placeContainer construct data parts t).1 ∧
      s.Building o (placeContainer construct data parts t).2 (placeContainer construct data parts w).2
        ((placeContainer construct data parts t).1 ::ₘ made) := by
  obtain ⟨same, spared⟩ := building.toSpared.place data (fun c hc => by simp [plain] at hc) fun a ha => by
    rw [handles] at ha
    obtain ⟨c, hc, rfl⟩ := List.mem_map.mp ha
    exact ⟨c, Multiset.mem_add.mpr (.inl (Multiset.mem_add.mpr (.inl hc))), rfl⟩
  rw [← Multiset.add_cons] at spared
  refine ⟨same, spared.releaseAll parts, fun h unknown issued => ?_⟩
  have issued' : (ConversionPolicy.place construct data t).2.Issued h := by
    change h.raw ≤ ((ConversionPolicy.place construct data t).2.releaseAll parts).lastId at issued
    rwa [apply_releaseAll Store.lastId lastId_release] at issued
  obtain ⟨c, hc, reaches⟩ := building.covered_place
    (fun c hc => handles ▸ List.mem_map_of_mem hc) unknown issued'
  refine ⟨c, hc, ?_⟩
  have balanced := spared.plain.balanced
  rw [add_assoc, add_assoc (parts : Multiset CellId)] at balanced
  have bound := balanced.binding?_releaseAll (Multiset.mem_add.mpr (.inl hc))
  show ((ConversionPolicy.place construct data t).2.releaseAll parts).Reaches
    (((ConversionPolicy.place construct data t).2.releaseAll parts).read c) h
  rw [read_congr bound, reaches_congr fun k => object?_releaseAll parts k _]
  exact reaches

end place

end Building

end Store

end ForeignBridge
