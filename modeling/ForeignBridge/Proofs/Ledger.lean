import ForeignBridge.Proofs.Slots
import ForeignBridge.Proofs.Tables
import ForeignBridge.Store.Collect
import ForeignBridge.Store.Family

/-! # The ledger of cells and roots

A ledger is a store together with an account of who holds what: the cells that are held from outside of the slots, as
often as they are held, and the roots that were taken and given back directly, without a cell.

* `Change` lists the elementary changes of a store that reclaim nothing, and what they do to the cells held from
  outside, whatever handles they are given.
* `Move` lists the changes of a ledger, which are given only handles that were handed out. Every operation that reclaims
  nothing is a sequence of moves (`Moves`).
* `Sweep` is the part of a collection that empties slots. Every operation is a sequence of moves and sweeps
  (`Evolves`).
* `Sound` is the invariant: every handle in the store was handed out, every cell has as many holders as the account
  says, and every slot has one root for each held cell that is bound to it, besides the roots taken directly.

Each move keeps the invariant (`Move.sound`), so every operation does. -/

namespace ForeignBridge

namespace Store

/-- What the tables ask of an object in a new slot: a family is not there already, and an applied type is none that is
there already, of a family and parameters. -/
structure Enters (s : Store) (object : Object) : Prop where
  family : ∀ name, object = .family name → s.family? name = none
  type : ∀ head params, object = .type head params →
    s.isFamily head = true ∧ params ≠ [] ∧ s.applied? head params = none

/-- What may be put into a new slot: moreover all its handles were handed out, and a namespace has no members yet. -/
structure Admits (s : Store) (object : Object) : Prop extends s.Enters object where
  issued : ∀ h ∈ object.handles, s.Issued h
  module : ∀ name members, object = .module name members → members = []

/-- Only families and applied types are entered in a table. -/
theorem enters_of_plain {s : Store} {object : Object} (plain : object.isTypeEntry = false) : s.Enters object where
  family name e := by
    subst e
    cases plain
  type head params e := by
    subst e
    cases plain

/-- A family that is not there may be entered. -/
theorem enters_family {s : Store} {name : String} (fresh : s.family? name = none) : s.Enters (.family name) where
  family other e := by
    cases e
    exact fresh
  type _ _ e := by cases e

/-- So may an applied type that is not there. -/
theorem enters_type {s : Store} {head : Handle} {params : List Handle} (family : s.isFamily head = true)
    (given : params ≠ []) (fresh : s.applied? head params = none) : s.Enters (.type head params) where
  family _ e := by cases e
  type own ps e := by
    cases e
    exact ⟨family, given, fresh⟩

/-- The store after the slots that cannot be reached are emptied; their cells are not released yet. -/
def sweep (s : Store) : Store := s.garbage.foldl (fun s dead => s.empty dead.1) s

/-- The cells that the unreachable slots hold. -/
def garbageCells (s : Store) : List CellId := s.garbage.flatMap fun dead => dead.2.object.cells

/-- An elementary change that reclaims nothing, with the cells held from outside before and after. -/
inductive Change (s : Store) : Multiset CellId → Store → Multiset CellId → Prop where
  /-- An event is noted, or the process comes to nothing. -/
  | log (o log halted) : Change s o { s with log, halted } o
  | fault (o) (pending : Option Handle) : Change s o { s with fault := pending } o
  | root (o) (h : Handle) : Change s o (s.root h) o
  | unroot (o) (h : Handle) : Change s o (s.unroot h) o
  | setMember (o) (parent : Handle) (name : String) (h : Handle) : Change s o (s.setMember parent name h) o
  /-- A new slot becomes the holder of the cells in its object. -/
  | push (o) (object : Object) (enters : s.Enters object) : Change s (object.cells + o) (s.pushSlot object) o
  | newCell (o) : Change s o s.newCell.2 (s.newCell.1 ::ₘ o)
  | hold (o) (h : Handle) : Change s o (s.hold h).2 ((s.hold h).1 ::ₘ o)
  | bind (t o) (c : CellId) (h : Handle) (bound : s.bind c h = .ok t) : Change s o t o
  | retain (o) (c : CellId) (held : c ∈ o + s.boxed) : Change s o (s.retain c) (c ::ₘ o)
  | release (o) (c : CellId) : Change s (c ::ₘ o) (s.release c) o

end Store

/-- A store and the account of its cells and roots. -/
structure Ledger where
  store : Store
  /-- The cells held from outside of the slots, as often as they are held. -/
  outside : Multiset CellId
  /-- The roots taken directly. -/
  rooted : Multiset Handle
  /-- The roots given back directly. -/
  unrooted : Multiset Handle

namespace Ledger

/-- Someone holds the cell. -/
def Holds (L : Ledger) (c : CellId) : Prop := c ∈ L.outside + L.store.boxed

/-- An elementary change that reclaims nothing. -/
inductive Move : Ledger → Ledger → Prop where
  /-- An event is noted, or the process comes to nothing. -/
  | log (s o r u log halted) : Move ⟨s, o, r, u⟩ ⟨{ s with log, halted }, o, r, u⟩
  | forget (s o r u) : Move ⟨s, o, r, u⟩ ⟨{ s with fault := none }, o, r, u⟩
  | fault (s o r u) (h : Handle) (live : s.isLive h = true) :
      Move ⟨s, o, r, u⟩ ⟨{ s with fault := some h }, o, r, u⟩
  | root (s o r u) (h : Handle) (issued : s.Issued h) : Move ⟨s, o, r, u⟩ ⟨s.root h, o, h ::ₘ r, u⟩
  | unroot (s o r u) (h : Handle) (issued : s.Issued h) : Move ⟨s, o, r, u⟩ ⟨s.unroot h, o, r, h ::ₘ u⟩
  | setMember (s o r u) (parent : Handle) (name : String) (h : Handle) (issued : s.Issued h) :
      Move ⟨s, o, r, u⟩ ⟨s.setMember parent name h, o, r, u⟩
  /-- A new slot becomes the holder of the cells in its object. -/
  | push (s o r u) (object : Object) (admitted : s.Admits object) :
      Move ⟨s, object.cells + o, r, u⟩ ⟨s.pushSlot object, o, r, u⟩
  | newCell (s o r u) : Move ⟨s, o, r, u⟩ ⟨s.newCell.2, s.newCell.1 ::ₘ o, r, u⟩
  | hold (s o r u) (h : Handle) (issued : s.Issued h) :
      Move ⟨s, o, r, u⟩ ⟨(s.hold h).2, (s.hold h).1 ::ₘ o, r, u⟩
  | bind (s t o r u) (c : CellId) (h : Handle) (held : Holds ⟨s, o, r, u⟩ c) (issued : s.Issued h)
      (bound : s.bind c h = .ok t) : Move ⟨s, o, r, u⟩ ⟨t, o, r, u⟩
  | retain (s o r u) (c : CellId) (held : Holds ⟨s, o, r, u⟩ c) :
      Move ⟨s, o, r, u⟩ ⟨s.retain c, c ::ₘ o, r, u⟩
  | release (s o r u) (c : CellId) : Move ⟨s, c ::ₘ o, r, u⟩ ⟨s.release c, o, r, u⟩

/-- The emptying part of a collection: the cells of the emptied slots are left to be released. -/
inductive Sweep : Ledger → Ledger → Prop where
  | sweep (s o r u) : Sweep ⟨s, o, r, u⟩ ⟨s.sweep, s.garbageCells + o, r, u⟩

/-- A sequence of moves. -/
def Moves : Ledger → Ledger → Prop := Relation.ReflTransGen Move

/-- A sequence of moves and sweeps. -/
def Evolves : Ledger → Ledger → Prop := Relation.ReflTransGen fun L L' => Move L L' ∨ Sweep L L'

end Ledger

/-! ### The invariant -/

namespace Store

/-- Every handle in the store was handed out. -/
structure Closed (s : Store) : Prop where
  main : s.Issued mainModule
  fault : ∀ h, s.fault = some h → s.Issued h
  entries : ∀ h ∈ s.entries, s.Issued h
  cells : ∀ c h, s.binding? c = some h → s.Issued h
  objects : ∀ h object, s.object? h = some object → ∀ k ∈ object.handles, s.Issued k

/-- The cells have the given holders, and only held cells are there. -/
structure Balanced (s : Store) (held : Multiset CellId) : Prop where
  holders : ∀ c, s.holderCount c = held.count c
  positive : ∀ c cell, s.cell? c = some cell → 0 < cell.holders

/-- The roots of a slot are those of the cells bound to it and those that were taken directly. -/
def Counts (s : Store) (rooted : Multiset Handle) (h : Handle) : Prop :=
  ∀ slot, s.slot? h = some slot → slot.roots = s.boundCount h + rooted.count h

end Store

/-- The account agrees with the store. Nothing is said about the roots of slots from which a root was taken away without
the cell that it belongs to. -/
structure Ledger.Sound (L : Ledger) : Prop where
  closed : L.store.Closed
  balanced : L.store.Balanced (L.outside + L.store.boxed)
  rooted : ∀ h ∈ L.rooted, L.store.Issued h
  unrooted : ∀ h ∈ L.unrooted, L.store.Issued h
  counts : ∀ h ∉ L.unrooted, L.store.Counts L.rooted h

namespace Store

/-! ### Handles stay handed out -/

section closed

variable {s t : Store}

theorem Issued.mono {h : Handle} (hs : s.Issued h) (last : s.lastId ≤ t.lastId) : t.Issued h :=
  le_trans hs last

/-- What a change has to respect: handles stay given out, and what is new was given out. -/
theorem Closed.mono (hs : s.Closed) (last : s.lastId ≤ t.lastId)
    (fault : ∀ h, t.fault = some h → s.fault = some h ∨ t.Issued h)
    (entries : ∀ h ∈ t.entries, h ∈ s.entries ∨ t.Issued h)
    (cells : ∀ c h, t.binding? c = some h → s.binding? c = some h ∨ t.Issued h)
    (objects : ∀ h object, t.object? h = some object → s.object? h = some object ∨
      ∀ k ∈ object.handles, t.Issued k) : t.Closed where
  main := hs.main.mono last
  fault h e := (fault h e).elim (fun e => (hs.fault h e).mono last) id
  entries h e := (entries h e).elim (fun e => (hs.entries h e).mono last) id
  cells c h e := (cells c h e).elim (fun e => (hs.cells c h e).mono last) id
  objects h object e k hk :=
    (objects h object e).elim (fun e => (hs.objects h object e k hk).mono last) fun all => all k hk

theorem issued_nextHandle_pushSlot (s : Store) (object : Object) : (s.pushSlot object).Issued s.nextHandle := by
  simp [Issued, nextHandle, pushSlot]

theorem not_issued_nextHandle (s : Store) : ¬ s.Issued s.nextHandle := by
  simp [Issued, nextHandle]

theorem lastId_pushSlot (s : Store) (object : Object) : (s.pushSlot object).lastId = s.lastId + 1 := rfl

theorem mem_entries {s : Store} {h : Handle} :
    h ∈ s.entries ↔ h ∈ s.families.map Prod.snd ∨ h ∈ s.applied.map Prod.snd := List.mem_append

theorem entries_congr {s t : Store} (families : s.families = t.families) (applied : s.applied = t.applied) :
    s.entries = t.entries := by
  rw [entries, entries, families, applied]

theorem mem_entries_pushSlot {s : Store} {object : Object} {h : Handle} (there : h ∈ (s.pushSlot object).entries) :
    h = s.nextHandle ∨ h ∈ s.entries := by
  rw [mem_entries] at there ⊢
  cases object with
  | family name => exact there.elim (fun e => (Keyed.mem_values_insert e).imp_right .inl) fun e => .inr (.inr e)
  | type head params => exact there.elim (fun e => .inr (.inl e)) fun e => (Assoc.mem_values_insert e).imp_right .inr
  | _ => exact .inr there

theorem object?_updateSlot (s : Store) (h k : Handle) (f : Slot → Slot) :
    (s.updateSlot h f).object? k = if k = h then (s.slot? h).map fun slot => (f slot).object else s.object? k := by
  simp only [object?, slot?_updateSlot]
  split
  · rw [Option.map_map]
    rfl
  · rfl

@[simp] theorem object?_root (s : Store) (h k : Handle) : (s.root h).object? k = s.object? k := by
  rw [root, object?_updateSlot]
  split
  · next e => rw [e]; rfl
  · rfl

@[simp] theorem object?_unroot (s : Store) (h k : Handle) : (s.unroot h).object? k = s.object? k := by
  rw [unroot, object?_updateSlot]
  split
  · next e => rw [e]; rfl
  · rfl

theorem object?_congr {s t : Store} (e : s.slots = t.slots) (h : Handle) : s.object? h = t.object? h := by
  rw [object?, object?, slot?_congr e]

theorem binding?_congr {s t : Store} (e : s.cells = t.cells) (c : CellId) : s.binding? c = t.binding? c := by
  rw [binding?, binding?, cell?_congr e]

theorem binding?_changeCell (s : Store) (c d : CellId) (g : Option Cell → Option Cell) (missing : g none = none) :
    (s.changeCell c g).binding? d = if d = c then (g (s.cell? c)).bind Cell.binding else s.binding? d := by
  simp only [binding?, cell?_changeCell s c d g missing]
  split <;> rfl

theorem binding?_pushCell (s : Store) (d : CellId) (cell : Cell) :
    (s.pushCell cell).binding? d = if d = s.nextCell then cell.binding else s.binding? d := by
  simp only [binding?, cell?_pushCell]
  split <;> rfl

theorem object?_hold (s : Store) (h k : Handle) : (s.hold h).2.object? k = s.object? k := by
  rw [hold_eq]
  exact object?_root s h k

theorem binding?_hold (s : Store) (h : Handle) (d : CellId) :
    (s.hold h).2.binding? d = if d = s.nextCell then some h else s.binding? d := by
  rw [binding?, cell?_hold]
  split <;> rfl

theorem binding?_hold_self (s : Store) (h : Handle) : (s.hold h).2.binding? (s.hold h).1 = some h := by
  have first : (s.hold h).1 = s.nextCell := by rw [hold_eq]
  rw [binding?_hold, if_pos first]

theorem Closed.note (hs : s.Closed) (log : Option (Array Event)) (halted : Bool) : Closed { s with log, halted } :=
  hs.mono le_rfl (fun _ e => .inl e) (fun _ e => .inl e) (fun _ _ e => .inl e) fun _ _ e => .inl e

theorem Closed.setFault (hs : s.Closed) (f : Option Handle) (issued : ∀ h, f = some h → s.Issued h) :
    Closed { s with fault := f } :=
  hs.mono le_rfl (fun h e => .inr (issued h e)) (fun _ e => .inl e) (fun _ _ e => .inl e) fun _ _ e => .inl e

theorem fault_updateSlot (s : Store) (h : Handle) (f : Slot → Slot) : (s.updateSlot h f).fault = s.fault :=
  apply_updateSlot s h f Store.fault fun _ _ _ => rfl

theorem entries_updateSlot (s : Store) (h : Handle) (f : Slot → Slot) : (s.updateSlot h f).entries = s.entries :=
  apply_updateSlot s h f entries fun _ _ _ => rfl

theorem Closed.updateSlot (hs : s.Closed) (h : Handle) (f : Slot → Slot)
    (handles : ∀ slot, s.slot? h = some slot → ∀ k ∈ (f slot).object.handles, k ∈ slot.object.handles ∨ s.Issued k) :
    (s.updateSlot h f).Closed := by
  apply hs.mono (lastId_updateSlot s h f).ge
  · intro k e
    exact .inl (by rwa [fault_updateSlot] at e)
  · intro k e
    exact .inl (by rwa [entries_updateSlot] at e)
  · intro c k e
    exact .inl (by rwa [binding?_congr (cells_updateSlot s h f)] at e)
  · intro k object e
    rw [object?_updateSlot] at e
    split at e
    · obtain ⟨slot, hslot, rfl⟩ := Option.map_eq_some_iff.mp e
      right
      intro x hx
      have last := (lastId_updateSlot s h f).ge
      rcases handles slot hslot x hx with old | new
      · exact (hs.objects h _ (object?_eq_some.mpr ⟨slot, hslot, rfl⟩) x old).mono last
      · exact new.mono last
    · exact .inl e

theorem Closed.root (hs : s.Closed) (h : Handle) : (s.root h).Closed :=
  hs.updateSlot h _ fun _ _ _ hk => .inl hk

theorem Closed.unroot (hs : s.Closed) (h : Handle) : (s.unroot h).Closed :=
  hs.updateSlot h _ fun _ _ _ hk => .inl hk

theorem Closed.setMember (hs : s.Closed) (parent : Handle) (name : String) {h : Handle} (issued : s.Issued h) :
    (s.setMember parent name h).Closed := by
  apply hs.updateSlot
  intro slot _ k hk
  split at hk
  · next own members e =>
    rw [e]
    rcases Keyed.mem_values_insert hk with rfl | old
    · exact .inr issued
    · exact .inl old
  · exact .inl hk

theorem object?_pushSlot (s : Store) (object : Object) (k : Handle) :
    (s.pushSlot object).object? k = if k = s.nextHandle then some object else s.object? k := by
  simp only [object?, slot?_pushSlot]
  split <;> rfl

theorem Closed.pushSlot (hs : s.Closed) {object : Object} (issued : ∀ h ∈ object.handles, s.Issued h) :
    (s.pushSlot object).Closed := by
  have last : s.lastId ≤ (s.pushSlot object).lastId := Nat.le_succ _
  apply hs.mono last (fun _ e => .inl e) ?_ (fun _ _ e => .inl e)
  · intro k o e
    rw [object?_pushSlot] at e
    split at e
    · obtain rfl := Option.some.inj e
      exact .inr fun x hx => (issued x hx).mono last
    · exact .inl e
  · intro k e
    rcases mem_entries_pushSlot e with rfl | old
    · exact .inr (issued_nextHandle_pushSlot s object)
    · exact .inl old

theorem Closed.pushCell (hs : s.Closed) {cell : Cell} (issued : ∀ h, cell.binding = some h → s.Issued h) :
    (s.pushCell cell).Closed := by
  refine hs.mono (t := s.pushCell cell) le_rfl (fun _ e => .inl e) (fun _ e => .inl e) ?_ fun _ _ e => .inl e
  intro c h e
  rw [binding?_pushCell] at e
  split at e
  · exact .inr (issued h e)
  · exact .inl e

theorem Closed.changeCell (hs : s.Closed) (c : CellId) {g : Option Cell → Option Cell} (missing : g none = none)
    (issued : ∀ h, (g (s.cell? c)).bind Cell.binding = some h → s.binding? c = some h ∨ s.Issued h) :
    (s.changeCell c g).Closed := by
  refine hs.mono (t := s.changeCell c g) le_rfl (fun _ e => .inl e) (fun _ e => .inl e) ?_ fun _ _ e => .inl e
  intro d h e
  rw [binding?_changeCell s c d g missing] at e
  split at e
  · next same => exact same ▸ issued h e
  · exact .inl e

theorem Closed.release (hs : s.Closed) (c : CellId) : (s.release c).Closed := by
  cases hc : s.cell? c with
  | none => simpa [Store.release, hc] using hs
  | some cell =>
    by_cases many : 1 < cell.holders
    · rw [release_of_many hc many]
      apply hs.changeCell c rfl
      intro h e
      rw [hc] at e
      exact .inl (by simpa [binding?, hc] using e)
    · rw [release_of_last hc many]
      apply Closed.unroot
      exact hs.changeCell c rfl fun h e => by simp at e

end closed

/-! ### Holders are accounted for -/

section balanced

variable {s : Store} {held : Multiset CellId} {c : CellId}

theorem Balanced.congr {t : Store} (hs : s.Balanced held) (e : t.cells = s.cells) : t.Balanced held where
  holders d := by rw [holderCount, cell?_congr e]; exact hs.holders d
  positive d cell hd := hs.positive d cell (by rwa [cell?_congr e] at hd)

theorem Balanced.of_eq {held' : Multiset CellId} (hs : s.Balanced held) (e : held = held') : s.Balanced held' := e ▸ hs

/-- A cell is there exactly if somebody holds it. -/
theorem Balanced.mem_iff (hs : s.Balanced held) : c ∈ held ↔ ∃ cell, s.cell? c = some cell := by
  rw [← Multiset.count_pos, ← hs.holders]
  constructor
  · intro pos
    cases hc : s.cell? c with
    | none => simp [holderCount, hc] at pos
    | some cell => exact ⟨cell, rfl⟩
  · rintro ⟨cell, hc⟩
    rw [holderCount_of_cell? hc]
    exact hs.positive c cell hc

theorem holderCount_pushCell (s : Store) (cell : Cell) (d : CellId) :
    (s.pushCell cell).holderCount d = if d = s.nextCell then cell.holders else s.holderCount d := by
  simp only [holderCount, cell?_pushCell]
  split <;> rfl

theorem holderCount_changeCell (s : Store) (c d : CellId) (g : Option Cell → Option Cell) (missing : g none = none) :
    (s.changeCell c g).holderCount d =
      if d = c then ((g (s.cell? c)).map Cell.holders).getD 0 else s.holderCount d := by
  simp only [holderCount, cell?_changeCell s c d g missing]
  split <;> rfl

theorem Balanced.pushCell (hs : s.Balanced held) (b : Option Handle) :
    (s.pushCell ⟨b, 1⟩).Balanced (s.nextCell ::ₘ held) where
  holders d := by
    rw [holderCount_pushCell, Multiset.count_cons, ← hs.holders]
    split
    · next e => simp [e, holderCount, cell?_nextCell]
    · rfl
  positive d cell hd := by
    rw [cell?_pushCell] at hd
    split at hd
    · obtain rfl := Option.some.inj hd
      exact Nat.one_pos
    · exact hs.positive d cell hd

/-- A change of one cell that leaves its number of holders alone. -/
theorem Balanced.changeCell (hs : s.Balanced held) (c : CellId) (f : Cell → Cell)
    (same : ∀ cell, (f cell).holders = cell.holders) : (s.changeCell c (Option.map f)).Balanced held where
  holders d := by
    rw [holderCount_changeCell _ _ _ _ rfl]
    split
    · next e =>
      rw [← hs.holders, e, holderCount]
      cases s.cell? c <;> simp [same]
    · exact hs.holders d
  positive d cell hd := by
    rw [cell?_changeCell _ _ _ _ rfl] at hd
    split at hd
    · obtain ⟨old, hc, rfl⟩ := Option.map_eq_some_iff.mp hd
      rw [same]
      exact hs.positive c old hc
    · exact hs.positive d cell hd

theorem Balanced.retain (hs : s.Balanced held) (hc : c ∈ held) : (s.retain c).Balanced (c ::ₘ held) where
  holders d := by
    obtain ⟨cell, hcell⟩ := hs.mem_iff.mp hc
    rw [retain_eq, holderCount_changeCell _ _ _ _ rfl, Multiset.count_cons, ← hs.holders]
    split
    · next e => simp [e, hcell, holderCount]
    · rfl
  positive d cell hd := by
    rw [retain_eq, cell?_changeCell _ _ _ _ rfl] at hd
    split at hd
    · obtain ⟨old, _, rfl⟩ := Option.map_eq_some_iff.mp hd
      exact Nat.succ_pos _
    · exact hs.positive d cell hd

theorem Balanced.release (hs : s.Balanced (c ::ₘ held)) : (s.release c).Balanced held := by
  obtain ⟨cell, hc⟩ := hs.mem_iff.mp (Multiset.mem_cons_self c held)
  have total : cell.holders = held.count c + 1 := by
    rw [← holderCount_of_cell? hc, hs.holders, Multiset.count_cons_self]
  have others : ∀ d, d ≠ c → s.holderCount d = held.count d := fun d hd => by
    rw [hs.holders, Multiset.count_cons_of_ne hd]
  by_cases many : 1 < cell.holders
  · rw [release_of_many hc many]
    constructor
    · intro d
      rw [holderCount_changeCell _ _ _ _ rfl]
      split
      · next e => simp [e, hc, total]
      · next e => exact others d e
    · intro d old hd
      rw [cell?_changeCell _ _ _ _ rfl] at hd
      split at hd
      · rw [hc] at hd
        obtain rfl := Option.some.inj hd
        exact Nat.sub_pos_of_lt many
      · exact hs.positive d old hd
  · rw [release_of_last hc many]
    refine Balanced.congr ?_ (cells_updateSlot _ _ _)
    constructor
    · intro d
      rw [holderCount_changeCell _ _ _ _ rfl]
      split
      · next e =>
        rw [e]
        simp only [Option.map_none, Option.getD_none]
        omega
      · next e => exact others d e
    · intro d old hd
      rw [cell?_changeCell _ _ _ _ rfl] at hd
      split at hd
      · simp at hd
      · exact hs.positive d old hd

end balanced

/-! ### Roots are accounted for -/

section counts

variable {s : Store} {rooted : Multiset Handle} {h : Handle} {c : CellId}

/-- What a change has to respect: the roots of a slot move together with the cells bound to it. -/
theorem Counts.of_updateSlot (hs : s.Counts rooted h) {k : Handle} {f : Slot → Slot} {t : Store}
    {rooted' : Multiset Handle} (slots : t.slots = (s.updateSlot k f).slots)
    (self : h = k → ∀ slot, s.slot? k = some slot → slot.roots = s.boundCount k + rooted.count k →
      (f slot).roots = t.boundCount k + rooted'.count k)
    (other : h ≠ k → t.boundCount h + rooted'.count h = s.boundCount h + rooted.count h) : t.Counts rooted' h := by
  intro slot hslot
  rw [slot?_congr slots, slot?_updateSlot] at hslot
  split at hslot
  · next e =>
    obtain ⟨old, hold, rfl⟩ := Option.map_eq_some_iff.mp hslot
    subst e
    exact self rfl old hold (hs old hold)
  · next e => rw [other e, hs slot hslot]

theorem Counts.of_slots_eq (hs : s.Counts rooted h) {t : Store} (slots : t.slots = s.slots)
    (bound : t.boundCount h = s.boundCount h) : t.Counts rooted h := by
  intro slot hslot
  rw [slot?_congr slots] at hslot
  rw [bound, hs slot hslot]

theorem Counts.root (hs : s.Counts rooted h) (k : Handle) : (s.root k).Counts (k ::ₘ rooted) h := by
  refine hs.of_updateSlot (t := s.root k) rfl ?_ ?_
  · intro _ slot _ e
    rw [boundCount_root, Multiset.count_cons_self]
    show slot.roots + 1 = _
    omega
  · intro hk
    rw [boundCount_root, Multiset.count_cons_of_ne hk]

theorem Counts.unroot (hs : s.Counts rooted h) {k : Handle} (hk : h ≠ k) : (s.unroot k).Counts rooted h := by
  refine hs.of_updateSlot (t := s.unroot k) rfl ?_ ?_
  · exact fun e => absurd e hk
  · intro _
    rw [boundCount_unroot]

theorem Counts.setMember (hs : s.Counts rooted h) (parent : Handle) (name : String) (k : Handle) :
    (s.setMember parent name k).Counts rooted h := by
  refine hs.of_updateSlot (t := s.setMember parent name k) rfl ?_ ?_
  · intro _ slot _ e
    rw [boundCount_setMember]
    split <;> exact e
  · intro _
    rw [boundCount_setMember]

theorem bindsTo_some (h : Handle) (cell : Cell) : bindsTo h (some cell) = if cell.binding = some h then 1 else 0 := rfl

/-- A cell that is bound to a handle on which it takes a root. -/
theorem Counts.pushBound (hs : s.Counts rooted h) (k : Handle) :
    ((s.root k).pushCell ⟨some k, 1⟩).Counts rooted h := by
  have bound (x : Handle) :
      ((s.root k).pushCell ⟨some k, 1⟩).boundCount x = s.boundCount x + if k = x then 1 else 0 := by
    rw [boundCount_pushCell, boundCount_root, bindsTo_some]
    simp
  refine hs.of_updateSlot (t := (s.root k).pushCell ⟨some k, 1⟩) rfl ?_ ?_
  · intro _ slot _ e
    rw [bound, if_pos rfl]
    show slot.roots + 1 = _
    omega
  · intro hk
    rw [bound, if_neg (Ne.symm hk), Nat.add_zero]

theorem Counts.pushUnbound (hs : s.Counts rooted h) : (s.pushCell ⟨none, 1⟩).Counts rooted h :=
  hs.of_slots_eq rfl (by rw [boundCount_pushCell]; rfl)

/-- A cell that changes nothing but its number of holders. -/
theorem Counts.changeHolders (hs : s.Counts rooted h) (c : CellId) (f : Cell → Cell)
    (same : ∀ cell, (f cell).binding = cell.binding) : (s.changeCell c (Option.map f)).Counts rooted h := by
  cases hc : s.cell? c with
  | none => rwa [changeCell_of_none s c _ hc rfl]
  | some cell =>
    refine hs.of_slots_eq rfl ?_
    have step := boundCount_changeCell h (Option.map f) hc
    rw [Option.map_some, bindsTo_some, bindsTo_some, same] at step
    exact add_right_cancel step

theorem Counts.bind (hs : s.Counts rooted h) {t : Store} {k : Handle} (held : ∃ cell, s.cell? c = some cell)
    (bound : s.bind c k = .ok t) : t.Counts rooted h := by
  obtain ⟨unbound, rfl⟩ := bind_eq_ok.mp bound
  obtain ⟨cell, hc⟩ := held
  rw [binding?_of_cell? hc] at unbound
  have count (x : Handle) :
      ((s.root k).changeCell c (Option.map fun cell => { cell with binding := some k })).boundCount x =
        s.boundCount x + if k = x then 1 else 0 := by
    have step := boundCount_changeCell (s := s.root k) x (Option.map fun cell => { cell with binding := some k })
      ((cell?_updateSlot s k _ c).trans hc)
    rw [boundCount_root, Option.map_some, bindsTo_some, bindsTo_some, unbound] at step
    simpa using step
  refine Counts.of_updateSlot (k := k)
    (t := (s.root k).changeCell c (Option.map fun cell => { cell with binding := some k })) hs rfl ?_ ?_
  · intro _ slot _ e
    rw [count, if_pos rfl]
    show slot.roots + 1 = _
    omega
  · intro hk
    rw [count, if_neg (Ne.symm hk), Nat.add_zero]

/-- The root of a cell goes with its last holder. As the cell was there, the root was there too, so nothing is taken
away from zero. -/
theorem Counts.release (hs : s.Counts rooted h) (c : CellId) : (s.release c).Counts rooted h := by
  cases hc : s.cell? c with
  | none => simpa [Store.release, hc] using hs
  | some cell =>
    by_cases many : 1 < cell.holders
    · rw [release_of_many hc many]
      exact hs.changeHolders c _ fun _ => rfl
    · rw [release_of_last hc many]
      have count (x : Handle) :
          (s.changeCell c fun _ => none).boundCount x + bindsTo x (some cell) = s.boundCount x := by
        have step := boundCount_changeCell x (fun _ => none) hc
        simpa [bindsTo] using step
      cases hb : cell.binding with
      | none =>
        refine hs.of_slots_eq rfl ?_
        have := count h
        rwa [bindsTo_some, hb, if_neg (by simp), Nat.add_zero] at this
      | some k =>
        rw [Option.getD_some]
        have slots : ((s.changeCell c fun _ => none).unroot k).slots = (s.unroot k).slots := by
          unfold Store.unroot updateSlot
          split <;> rfl
        refine Counts.of_updateSlot hs slots ?_ ?_
        · intro _ slot _ e
          have := count k
          rw [bindsTo_some, hb, if_pos rfl] at this
          rw [boundCount_unroot]
          show slot.roots - 1 = _
          omega
        · intro hk
          have := count h
          rw [bindsTo_some, hb, if_neg fun e => hk (Option.some.inj e).symm, Nat.add_zero] at this
          rw [boundCount_unroot, this]

theorem Counts.pushSlot (hs : s.Counts rooted h) (object : Object) (closed : s.Closed)
    (issued : ∀ k ∈ rooted, s.Issued k) : (s.pushSlot object).Counts rooted h := by
  intro slot hslot
  rw [slot?_pushSlot] at hslot
  split at hslot
  · next e =>
    obtain rfl := Option.some.inj hslot
    have unbound : s.boundCount h = 0 := by
      apply boundCount_eq_zero
      intro c hc
      exact not_issued_nextHandle s (e ▸ closed.cells c h hc)
    have unrooted : rooted.count h = 0 :=
      Multiset.count_eq_zero.mpr fun hk => not_issued_nextHandle s (e ▸ issued h hk)
    rw [boundCount_congr (s := s.pushSlot object) (t := s) rfl, unbound, unrooted]
  · exact hs slot hslot

end counts

/-! ### Slots and their cells under the operations on cells -/

section boxed

variable (s : Store) (h : Handle) (c : CellId)

@[simp] theorem lastId_root : (s.root h).lastId = s.lastId := lastId_updateSlot s h _
@[simp] theorem lastId_unroot : (s.unroot h).lastId = s.lastId := lastId_updateSlot s h _
@[simp] theorem boxed_root : (s.root h).boxed = s.boxed := boxed_updateSlot s h _ fun _ _ => rfl
@[simp] theorem boxed_unroot : (s.unroot h).boxed = s.boxed := boxed_updateSlot s h _ fun _ _ => rfl

@[simp] theorem lastId_setMember (name : String) (k : Handle) : (s.setMember h name k).lastId = s.lastId :=
  lastId_updateSlot s h _

@[simp] theorem boxed_setMember (name : String) (k : Handle) : (s.setMember h name k).boxed = s.boxed := by
  apply boxed_updateSlot
  intro slot _
  split
  · next own members e => rw [e]; rfl
  · rfl

/-- Giving up a cell takes no slot away and leaves the objects alone. -/
theorem object?_release (k : Handle) : (s.release c).object? k = s.object? k :=
  apply_release (·.object? k) (fun _ _ _ => rfl) (fun s h => object?_unroot s h k) s c

@[simp] theorem lastId_release : (s.release c).lastId = s.lastId :=
  apply_release Store.lastId (fun _ _ _ => rfl) lastId_unroot s c

@[simp] theorem boxed_release : (s.release c).boxed = s.boxed :=
  apply_release boxed (fun _ _ _ => rfl) boxed_unroot s c

end boxed

/-- Every elementary change accounts for the cells. -/
theorem Change.balanced {s t : Store} {o o' : Multiset CellId} (change : s.Change o t o')
    (balanced : s.Balanced (o + s.boxed)) : t.Balanced (o' + t.boxed) := by
  cases change with
  | log | fault => exact balanced.congr rfl
  | root o h =>
    simp only [boxed_root]
    exact balanced.congr (cells_root s h)
  | unroot o h =>
    simp only [boxed_unroot]
    exact balanced.congr (cells_unroot s h)
  | setMember o parent name h =>
    simp only [boxed_setMember]
    exact balanced.congr (cells_setMember s parent name h)
  | push o object =>
    simp only [boxed_pushSlot]
    refine (balanced.congr rfl : (s.pushSlot object).Balanced _).of_eq ?_
    abel
  | newCell o => exact (balanced.pushCell none).of_eq (Multiset.cons_add _ _ _).symm
  | hold o h =>
    simp only [hold_eq]
    have rooted : (s.root h).Balanced (o + s.boxed) := balanced.congr (cells_root s h)
    refine (rooted.pushCell (some h)).of_eq ?_
    rw [Multiset.cons_add, ← boxed_root s h]
    simp only [nextCell, cells_root]
    rfl
  | bind t o c h bound =>
    obtain ⟨_, rfl⟩ := bind_eq_ok.mp bound
    have rooted : (s.root h).Balanced (o + s.boxed) := balanced.congr (cells_root s h)
    refine Balanced.of_eq (rooted.changeCell c (fun cell => { cell with binding := some h }) fun _ => rfl) ?_
    rw [← boxed_root s h]
    rfl
  | retain o c held => exact (balanced.retain held).of_eq (Multiset.cons_add _ _ _).symm
  | release o c =>
    simp only [boxed_release]
    exact (balanced.of_eq (Multiset.cons_add _ _ _)).release

end Store

namespace Ledger

variable {L L' : Ledger}

/-! ### Moves keep the invariant -/

theorem Move.lastId_le (move : Move L L') : L.store.lastId ≤ L'.store.lastId := by
  cases move with
  | push => exact Nat.le_succ _
  | hold => simp [Store.hold_eq, Store.pushCell]
  | bind _ _ _ _ _ _ _ _ _ bound =>
    obtain ⟨_, rfl⟩ := Store.bind_eq_ok.mp bound
    simp [Store.changeCell]
  | _ => simp [Store.newCell_eq, Store.pushCell, Store.retain_eq, Store.changeCell]

theorem Sound.holds_iff (sound : L.Sound) {c : CellId} : L.Holds c ↔ ∃ cell, L.store.cell? c = some cell :=
  sound.balanced.mem_iff

theorem Move.closed (sound : L.Sound) (move : Move L L') : L'.store.Closed := by
  have closed := sound.closed
  cases move with
  | log s o r u log halted => exact closed.note log halted
  | forget s o r u => exact closed.setFault none fun h e => by simp at e
  | fault s o r u h live =>
    apply closed.setFault
    intro k e
    obtain rfl := Option.some.inj e
    obtain ⟨slot, hs⟩ := Store.isLive_iff.mp live
    exact Store.issued_of_slot? hs
  | root s o r u h _ => exact closed.root h
  | unroot s o r u h _ => exact closed.unroot h
  | setMember s o r u parent name h issued => exact closed.setMember parent name issued
  | push s o r u object admitted => exact closed.pushSlot admitted.issued
  | newCell s o r u => exact closed.pushCell fun h e => by simp at e
  | hold s o r u h issued =>
    simp only [Store.hold_eq]
    apply (closed.root h).pushCell
    intro k e
    obtain rfl := Option.some.inj e
    exact issued.mono (Store.lastId_root s h).ge
  | bind s t o r u c h held issued bound =>
    obtain ⟨_, rfl⟩ := Store.bind_eq_ok.mp bound
    apply (closed.root h).changeCell c rfl
    intro k e
    right
    cases hc : (s.root h).cell? c with
    | none => simp [hc] at e
    | some cell =>
      rw [hc] at e
      obtain rfl := Option.some.inj e
      exact issued.mono (Store.lastId_root s h).ge
  | retain s o r u c held =>
    apply closed.changeCell c rfl
    intro k e
    left
    cases hc : s.cell? c with
    | none => simp [hc] at e
    | some cell => simpa [hc, Store.binding?] using e
  | release s o r u c => exact closed.release c

theorem Move.change (move : Move L L') : L.store.Change L.outside L'.store L'.outside := by
  cases move with
  | log s o r u log halted => exact .log o log halted
  | forget s o r u => exact .fault o none
  | fault s o r u h _ => exact .fault o (some h)
  | root s o r u h _ => exact .root o h
  | unroot s o r u h _ => exact .unroot o h
  | setMember s o r u parent name h _ => exact .setMember o parent name h
  | push s o r u object admitted => exact .push o object admitted.toEnters
  | newCell s o r u => exact .newCell o
  | hold s o r u h _ => exact .hold o h
  | bind s t o r u c h _ _ bound => exact .bind t o c h bound
  | retain s o r u c held => exact .retain o c held
  | release s o r u c => exact .release o c

theorem Move.balanced (sound : L.Sound) (move : Move L L') :
    L'.store.Balanced (L'.outside + L'.store.boxed) := move.change.balanced sound.balanced

theorem Move.counts (sound : L.Sound) (move : Move L L') (h : Handle) (free : h ∉ L'.unrooted) :
    L'.store.Counts L'.rooted h := by
  have counts := sound.counts h
  cases move with
  | log | forget | fault => exact (counts free).of_slots_eq rfl rfl
  | root s o r u k _ => exact (counts free).root k
  | unroot s o r u k _ =>
    have apart := Multiset.mem_cons.not.mp free
    exact (counts fun hu => apart (.inr hu)).unroot fun e => apart (.inl e)
  | setMember s o r u parent name k _ => exact (counts free).setMember parent name k
  | push s o r u object _ => exact (counts free).pushSlot object sound.closed sound.rooted
  | newCell s o r u => exact (counts free).pushUnbound
  | hold s o r u k _ =>
    simp only [Store.hold_eq]
    exact (counts free).pushBound k
  | bind s t o r u c k held _ bound => exact (counts free).bind (sound.holds_iff.mp held) bound
  | retain s o r u c _ => exact (counts free).changeHolders c _ fun _ => rfl
  | release s o r u c => exact (counts free).release c

/-- **Every elementary change keeps the invariant.** -/
theorem Move.sound (sound : L.Sound) (move : Move L L') : L'.Sound where
  closed := move.closed sound
  balanced := move.balanced sound
  rooted := by
    have last := move.lastId_le
    have rooted := sound.rooted
    cases move with
    | root s o r u h issued =>
      intro k hk
      rcases Multiset.mem_cons.mp hk with rfl | hk
      · exact issued.mono last
      · exact (rooted k hk).mono last
    | _ => exact fun k hk => (rooted k hk).mono last
  unrooted := by
    have last := move.lastId_le
    have unrooted := sound.unrooted
    cases move with
    | unroot s o r u h issued =>
      intro k hk
      rcases Multiset.mem_cons.mp hk with rfl | hk
      · exact issued.mono last
      · exact (unrooted k hk).mono last
    | _ => exact fun k hk => (unrooted k hk).mono last
  counts := move.counts sound

end Ledger

end ForeignBridge
