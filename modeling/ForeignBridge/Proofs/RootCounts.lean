import ForeignBridge.Proofs.Custody

/-! # Roots are counted exactly

In a run in which roots are given back only with the cells they belong to, a slot has as many roots as there are cells
bound to it that somebody holds, and besides them those that were taken directly (`roots_counted`). A cell counts
once, however many holders it has. When a cell goes, the root that goes with it is there. -/

namespace ForeignBridge

namespace Store

variable {s : Store} {held : Multiset CellId} {h : Handle}

/-- How many of the held cells are bound to a handle. A cell counts once, however often it is held. -/
def heldCount (s : Store) (held : Multiset CellId) (h : Handle) : ℕ :=
  (held.toFinset.filter fun c => s.binding? c = some h).card

/-- Every slot has one root for each held cell that is bound to it, and one for each that was taken directly. -/
def RootsCounted (s : Store) (held : Multiset CellId) (rooted : Multiset Handle) : Prop :=
  ∀ h, s.isLive h = true → s.rootCount h = s.heldCount held h + rooted.count h

/-- Whichever cell goes next, the root that goes with it is there. -/
def Covered (s : Store) : Prop := ∀ c h, s.binding? c = some h → s.isLive h = true → 0 < s.rootCount h

/-! ### Cells that are held -/

/-- The cells that are bound to a handle. -/
def boundCells (s : Store) (h : Handle) : Finset CellId :=
  ((Finset.range s.cells.size).image CellId.mk).filter fun c => s.binding? c = some h

theorem mem_boundCells {c : CellId} : c ∈ s.boundCells h ↔ s.binding? c = some h := by
  rw [boundCells, Finset.mem_filter, and_iff_right_iff_imp]
  intro bound
  obtain ⟨cell, hc, _⟩ := cell?_of_binding? bound
  exact Finset.mem_image.mpr ⟨c.index, Finset.mem_range.mpr (lt_of_cell? hc), rfl⟩

theorem card_boundCells (s : Store) (h : Handle) : (s.boundCells h).card = s.boundCount h := by
  unfold boundCount
  rw [← Fin.sum_univ_fun_getElem]
  simp only [bindsTo]
  rw [← Finset.card_filter]
  have there : ∀ i : Fin s.cells.toList.length, s.binding? ⟨i⟩ = (s.cells.toList[i.1]).bind Cell.binding := by
    intro i
    have inside : i.1 < s.cells.size := Array.length_toList ▸ i.2
    simp [binding?, cell?, inside]
  symm
  refine Finset.card_bij (fun i _ => ⟨i.1⟩) ?_ ?_ ?_
  · exact fun i hi => mem_boundCells.mpr ((there i).trans (Finset.mem_filter.mp hi).2)
  · exact fun i _ j _ same => Fin.ext (CellId.mk.inj same)
  · intro c hc
    have bound := mem_boundCells.mp hc
    obtain ⟨cell, hcell, _⟩ := cell?_of_binding? bound
    have inside : c.index < s.cells.toList.length := by simpa using lt_of_cell? hcell
    have counted := (there ⟨c.index, inside⟩).symm.trans bound
    exact ⟨⟨c.index, inside⟩, Finset.mem_filter.mpr ⟨Finset.mem_univ _, counted⟩, rfl⟩

theorem heldCount_le_boundCount (held : Multiset CellId) : s.heldCount held h ≤ s.boundCount h := by
  rw [heldCount, ← card_boundCells]
  exact Finset.card_le_card fun c hc => mem_boundCells.mpr (Finset.mem_filter.mp hc).2

theorem Balanced.heldCount_eq (balanced : s.Balanced held) : s.heldCount held h = s.boundCount h := by
  rw [heldCount, ← card_boundCells]
  congr 1
  ext c
  rw [Finset.mem_filter, mem_boundCells, Multiset.mem_toFinset, balanced.mem_iff, and_iff_right_iff_imp]
  intro bound
  obtain ⟨cell, hc, _⟩ := cell?_of_binding? bound
  exact ⟨cell, hc⟩

/-! ### Null and bound cells -/

theorem isLive_null (s : Store) : s.isLive Handle.null = false := rfl

theorem slots_hold_null (s : Store) : (s.hold Handle.null).2.slots = s.slots := rfl

theorem slots_bind_null {t : Store} {c : CellId} (bound : s.bind c Handle.null = .ok t) : t.slots = s.slots := by
  obtain ⟨_, rfl⟩ := bind_eq_ok.mp bound
  rfl

theorem bind_of_bound {c : CellId} {existing : Handle} (bound : s.binding? c = some existing) (h : Handle) :
    s.bind c h = .error existing := bind_eq_error.mpr bound

/-- A function that binds a bound cell is told what it is bound to, and nothing changes. -/
theorem Running.bind_of_bound {r : Running} {i : ℕ} {c : CellId} {existing : Handle} (found : r.held[i]? = some c)
    (bound : r.store.binding? c = some existing) (h : Handle) : r.bind i h = (some existing, r) := by
  simp only [Running.bind, found, Store.bind_of_bound bound h]

end Store

namespace Ledger

variable {L L' : Ledger}

theorem Sound.rootsCounted {s : Store} {o : Multiset CellId} {R : Multiset Handle} (sound : Sound ⟨s, o, R, 0⟩) :
    s.RootsCounted (o + s.boxed) R := by
  intro h live
  obtain ⟨slot, hs⟩ := Store.isLive_iff.mp live
  rw [Store.rootCount_of_slot? hs, sound.balanced.heldCount_eq]
  exact sound.counts h (Multiset.notMem_zero h) slot hs

theorem Sound.covered (sound : L.Sound) (none : L.unrooted = 0) : L.store.Covered := by
  intro c h bound live
  obtain ⟨slot, hs⟩ := Store.isLive_iff.mp live
  rw [Store.rootCount_of_slot? hs]
  exact sound.root_pos bound (none ▸ Multiset.notMem_zero h) hs

/-- One ledger comes from the other, and whatever way is taken, no finalizer on it misses the root that it gives
back. -/
structure EvolvesCovered (L L' : Ledger) : Prop where
  evolves : Evolves L L'
  covered : ∀ M, Evolves L M → Evolves M L' → M.store.Covered

theorem Evolves.covered (evolves : Evolves L L') (sound : L.Sound) (none : L'.unrooted = 0) : EvolvesCovered L L' where
  evolves := evolves
  covered _ before after :=
    (Evolves.sound before sound).covered (Multiset.le_zero.mp (none ▸ Evolves.unrooted_le after))

end Ledger

namespace Session

open Ledger

variable {version : Version} {families : List String} {policy : ConversionPolicy} {stack : ℕ} {script : Script}

theorem temporaries_step (s : Session) (st : Step) (target : Option String) :
    (s.step st target).2.temporaries = [] := by
  obtain ⟨_, _, _, ended⟩ | ⟨_, _, _, ended⟩ := s.step_cases st target <;> rw [ended] <;> rfl

theorem temporaries_run (script : Script) : ∀ {s : Session}, s.temporaries = [] → (s.run script).temporaries = [] := by
  induction script with
  | nil => exact fun none => none
  | cons head script ih => exact fun _ => ih (temporaries_step _ head.1 head.2)

/-- A step that binds a bound cell says so, and changes nothing. -/
theorem step_bind_bound {s : Session} {name : String} {input : HandleInput} {c : CellId} {h existing : Handle}
    (none : s.temporaries = []) (cell : (Action.cellOf name).run s = (.ok c, s))
    (handle : (Action.handle input).run s = (.ok h, s)) (bound : s.store.binding? c = some existing)
    (target : Option String) : s.step (.bind name input) target = (.error (.alreadyBound ⟨existing⟩), s) := by
  have failed := s.store.bind_of_bound bound h
  have performed : (Action.perform (.bind name input)).run s = (.error (.alreadyBound ⟨existing⟩), s) := by
    unfold Action.perform
    rw [Action.run_bind, cell]
    show (Action.handle input >>= _).run s = _
    rw [Action.run_bind, handle]
    show (Action.tryStore _ _ >>= _).run s = _
    rw [Action.run_bind, Action.run_tryStore_error (e := existing) (by rw [failed]), failed]
  rw [step_of_error performed]
  obtain ⟨store, bridge, registry, calls, report, bindings, running, temporaries⟩ := s
  obtain rfl : temporaries = [] := none
  rfl

/-! ### Whole runs -/

/-- The ledger at the end of a run. -/
def ending (version : Version) (families : List String) (policy : ConversionPolicy) (stack : ℕ) (script : Script) :
    Ledger :=
  ⟨((start version families policy stack).run script).store, ((start version families policy stack).run script).holdings,
    Moment.rootedIn ((start version families policy stack).history script), 0⟩

theorem along_ending (passes : ∀ m ∈ (start version families policy stack).history script, m.Passes)
    (finalizers : ∀ m ∈ (start version families policy stack).history script, m.act.unroots = false) :
    Along (initial version stack) ((start version families policy stack).history script)
      (ending version families policy stack script) := by
  obtain ⟨R, U, along⟩ := (at_end passes).along
  have rooted := along.rooted_eq
  have unrooted := along.unrooted_eq
  rw [Moment.unrootedIn_eq_zero finalizers] at unrooted
  simp only [ledger, initial, add_zero] at rooted unrooted
  subst rooted unrooted
  rwa [ledger, zero_add] at along

theorem sound_ending (passes : ∀ m ∈ (start version families policy stack).history script, m.Passes)
    (finalizers : ∀ m ∈ (start version families policy stack).history script, m.act.unroots = false) :
    (ending version families policy stack script).Sound :=
  (along_ending passes finalizers).evolves.sound (sound_initial version stack)

/-- What a step changes about the roots of a slot is what it changes about the cells that are held. -/
theorem rootCount_step {before after : Script} {st : Step} {target : Option String}
    (passes : ∀ m ∈ (start version families policy stack).history (before ++ (st, target) :: after), m.Passes)
    (finalizers : ∀ m ∈ (start version families policy stack).history (before ++ (st, target) :: after),
      m.act.unroots = false) {h : Handle} :
    let s := (start version families policy stack).run before
    let s' := (s.step st target).2
    s.store.isLive h = true → s'.store.isLive h = true →
      s'.store.rootCount h + s.store.heldCount (s.holdings + s.store.boxed) h =
        s.store.rootCount h + s'.store.heldCount (s'.holdings + s'.store.boxed) h +
          (Moment.rootedIn (s.moments st)).count h := by
  intro s s' live live'
  have whole : (start version families policy stack).history (before ++ (st, target) :: after) =
      (start version families policy stack).history before ++ (s.moments st ++ s'.history after) :=
    history_append before _ _
  have upTo : (start version families policy stack).history (before ++ [(st, target)]) =
      (start version families policy stack).history before ++ s.moments st := by
    rw [history_append]
    exact congrArg _ (List.append_nil _)
  have reached : (start version families policy stack).run (before ++ [(st, target)]) = s' := by
    simp only [run, List.foldl_append]
    rfl
  rw [whole] at passes finalizers
  have first : s.store.rootCount h = s.store.heldCount (s.holdings + s.store.boxed) h + Multiset.count h
      (Moment.rootedIn ((start version families policy stack).history before)) :=
    (sound_ending (fun m hm => passes m (List.mem_append_left _ hm))
      fun m hm => finalizers m (List.mem_append_left _ hm)).rootsCounted h live
  have inside : ∀ m ∈ (start version families policy stack).history (before ++ [(st, target)]),
      m ∈ (start version families policy stack).history before ++ (s.moments st ++ s'.history after) := by
    intro m hm
    rw [upTo] at hm
    rw [← List.append_assoc]
    exact List.mem_append_left _ hm
  have sound := sound_ending (fun m hm => passes m (inside m hm)) fun m hm => finalizers m (inside m hm)
  have second := sound.rootsCounted h
  rw [reached, upTo, Moment.rootedIn_append, Multiset.count_add] at second
  have second := second live'
  omega

/-- **Roots are counted exactly.** In every run in which the handles that are passed in were handed out and roots are
given back only with their cells, and at every moment of it: a slot has one root for each cell that somebody holds and
that is bound to it, however many holders the cell has, and one for each root that was taken directly, all since the
slot is there; and every cell that goes on the way finds the root that it gives back. So a step, whatever it does and
however it ends, changes roots only by the cells that it hands out or drops. Null never has a root, and a bound cell
cannot be bound again. -/
theorem roots_counted (version : Version) (families : List String) (policy : ConversionPolicy) (stack : ℕ)
    (script : Script)
    (passes : ∀ m ∈ (start version families policy stack).history script, m.Passes)
    (finalizers : ∀ m ∈ (start version families policy stack).history script, m.act.unroots = false) :
    (∀ pre m post, (start version families policy stack).history script = pre ++ m :: post →
      m.store.RootsCounted m.holders (Moment.rootedIn pre) ∧
      (∀ n ∈ pre, ∀ h, n.store.Issued h → m.store.isLive h = true → n.store.isLive h = true) ∧
      EvolvesCovered (initial version stack) ⟨m.store, m.held, Moment.rootedIn pre, 0⟩ ∧
      EvolvesCovered ⟨m.store, m.held, Moment.rootedIn pre, 0⟩ (ending version families policy stack script)) ∧
    ((start version families policy stack).run script).store.RootsCounted
      (((start version families policy stack).run script).holdings +
        ((start version families policy stack).run script).store.boxed)
      (Moment.rootedIn ((start version families policy stack).history script)) ∧
    (∀ before st target after, script = before ++ (st, target) :: after →
      let s := (start version families policy stack).run before
      let s' := (s.step st target).2
      (∀ h, s.store.isLive h = true → s'.store.isLive h = true →
        s'.store.rootCount h + s.store.heldCount (s.holdings + s.store.boxed) h =
          s.store.rootCount h + s'.store.heldCount (s'.holdings + s'.store.boxed) h +
            (Moment.rootedIn (s.moments st)).count h) ∧
      ∀ name input c h existing, st = .bind name input → (Action.cellOf name).run s = (.ok c, s) →
        (Action.handle input).run s = (.ok h, s) → s.store.binding? c = some existing →
        s.step st target = (.error (.alreadyBound ⟨existing⟩), s)) ∧
    (∀ (r : Store.Running) i c h existing, r.held[i]? = some c → r.store.binding? c = some existing →
      r.bind i h = (some existing, r)) ∧
    (∀ s : Store, s.isLive Handle.null = false ∧ s.root Handle.null = s ∧ (s.hold Handle.null).2.slots = s.slots ∧
      ∀ c t, s.bind c Handle.null = .ok t → t.slots = s.slots) := by
  refine ⟨fun pre m post split => ?_, ?_, ?_, ?_, ?_⟩
  · have sound := sound_moment passes split
    have before : Moment.unrootedIn pre = 0 := Moment.unrootedIn_eq_zero fun n hn => finalizers n (split ▸ by simp [hn])
    rw [before] at sound
    have along := along_ending passes finalizers
    have reached := along.at_moment split
    obtain ⟨t, o, act, rest⟩ := along.from_moment split
    have left := act.trans rest.evolves
    rw [before] at reached act left
    simp only [initial, add_zero] at reached left
    refine ⟨sound.rootsCounted, ?_, reached.covered (sound_initial version stack) rfl, left.covered sound rfl⟩
    intro n hn h issued live
    obtain ⟨early, mid, rfl⟩ := List.append_of_mem hn
    rw [List.append_assoc, List.cons_append] at split
    obtain ⟨_, evolves⟩ := along.later_moment split
    exact evolves.isLive issued live
  · exact (sound_ending passes finalizers).rootsCounted
  · rintro before st target after rfl s s'
    refine ⟨fun h live live' => rootCount_step passes finalizers live live', ?_⟩
    rintro name input c h existing rfl cell handle bound
    exact step_bind_bound (temporaries_run before rfl) cell handle bound target
  · exact fun r i c h existing found bound => Store.Running.bind_of_bound found bound h
  · intro s
    refine ⟨s.isLive_null, s.root_null, s.slots_hold_null, ?_⟩
    exact fun c t bound => Store.slots_bind_null bound

/-- A slot with a direct root and a cell that two variables hold. -/
def rootAndShare : Script :=
  [(.construct (.plain (.int 7)), some "h"), (.root (.named "h"), none), (.newBound (.named "h"), some "c"),
    (.copy "c", some "d"), (.bind "c" (.number ⟨1⟩), none)]

theorem roots_counted_rootAndShare :
    let last := (start ⟨1, 0, 0, [], []⟩ [] .full).run rootAndShare
    last.store.rootCount ⟨2⟩ = 2 ∧ last.store.heldCount (last.holdings + last.store.boxed) ⟨2⟩ + 1 = 2 := by
  have counted := (roots_counted ⟨1, 0, 0, [], []⟩ [] .full 10000 rootAndShare
    (by decide +kernel) (by decide +kernel)).2.1 ⟨2⟩ (by decide +kernel)
  have roots : ((start ⟨1, 0, 0, [], []⟩ [] .full).run rootAndShare).store.rootCount ⟨2⟩ = 2 := by decide +kernel
  have direct : (Moment.rootedIn ((start ⟨1, 0, 0, [], []⟩ [] .full).history rootAndShare)).count ⟨2⟩ = 1 := by
    decide +kernel
  rw [direct] at counted
  exact ⟨roots, counted.symm.trans roots⟩

end Session

end ForeignBridge
