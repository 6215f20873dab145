import ForeignBridge.Proofs.Lifetimes
import ForeignBridge.Proofs.Steps

/-! # Whoever holds a cell keeps what it refers to

A run is a script over a session. In a run in which every handle that is passed in was handed out, and in which roots
are given back only with the cells they belong to, a collection at any moment leaves alone whatever can be reached
from a cell that somebody holds just then: a variable, the registry, a direct call, a boxed value, a function or the
arguments of a call on its way (`collections_spare_held`). -/

namespace ForeignBridge

namespace Ledger

/-! ### The start of a run -/

/-- The ledger of a store with nothing but its main namespace. -/
def initial (version : Version) (stack : ℕ) : Ledger := ⟨.ofVersion version stack, 0, 0, 0⟩

theorem slot?_ofVersion {version : Version} {stack : ℕ} {h : Handle} {slot : Slot}
    (found : (Store.ofVersion version stack).slot? h = some slot) :
    h = Store.mainModule ∧ slot = ⟨.module "Main" [], 0⟩ := by
  have issued := Store.issued_of_slot? found
  have notNull : h ≠ Handle.null := by
    rintro rfl
    cases found
  obtain ⟨raw⟩ := h
  have one : raw = 1 := by
    have : raw ≤ 1 := issued
    have : raw ≠ 0 := fun e => notNull (by rw [e]; rfl)
    omega
  subst one
  exact ⟨rfl, (Option.some.inj found).symm⟩

theorem sound_initial (version : Version) (stack : ℕ) : (initial version stack).Sound where
  closed :=
    { main := le_refl 1
      fault := fun h e => by cases e
      entries := fun h e => by cases e
      cells := fun c h e => by simp [initial, Store.ofVersion, Store.binding?, Store.cell?] at e
      objects := by
        intro h object found k hk
        obtain ⟨slot, hs, rfl⟩ := Store.object?_eq_some.mp found
        obtain ⟨_, rfl⟩ := slot?_ofVersion hs
        cases hk }
  balanced :=
    { holders := fun c => by
        simp [initial, Store.ofVersion, Store.holderCount, Store.cell?, Store.boxed, Store.slotCells, Object.cells]
      positive := fun c cell e => by simp [initial, Store.ofVersion, Store.cell?] at e }
  rooted := fun h hh => absurd hh (Multiset.notMem_zero h)
  unrooted := fun h hh => absurd hh (Multiset.notMem_zero h)
  counts := by
    intro h _ slot found
    obtain ⟨_, rfl⟩ := slot?_ofVersion found
    simp [initial, Store.ofVersion, Store.boundCount]

theorem moves_providing (version : Version) (families : List String) (stack : ℕ) :
    Moves (initial version stack) ⟨Store.providing version families stack, 0, 0, 0⟩ := by
  have all : ∀ (families : List String) {s : Store}, Moves ⟨s, 0, 0, 0⟩
      ⟨families.foldl (fun s name => (s.provideFamily name).2) s, 0, 0, 0⟩ := by
    intro families
    induction families with
    | nil => exact .refl _
    | cons name rest ih => exact (moves_provideFamily name).trans ih
  exact all families

end Ledger

namespace Session

theorem at_start (version : Version) (families : List String) (policy : ConversionPolicy) (stack : ℕ) :
    At (Ledger.initial version stack) [] (start version families policy stack) 0 where
  start := Ledger.sound_initial version stack
  along := ⟨0, 0, .of_evolves (Ledger.moves_providing version families stack).evolves⟩
  tidy :=
    { bindings := Keyed.ascends_nil
      registry := Registry.ascends_empty
      calls := Keyed.ascends_nil
      known := fun e he => by cases he }

theorem history_append (first second : Script) : ∀ s : Session,
    s.history (first ++ second) = s.history first ++ (s.run first).history second := by
  induction first with
  | nil => exact fun s => rfl
  | cons head first ih =>
    intro s
    obtain ⟨st, target⟩ := head
    show s.moments st ++ (s.step st target).2.history (first ++ second) = _
    rw [ih, ← List.append_assoc]
    rfl

end Session

/-! ### What a moment promises -/

namespace Moment

/-- The cells that are there are those that somebody holds. -/
def Accounts (m : Moment) : Prop := ∀ c, c ∈ m.holders ↔ ∃ cell, m.store.cell? c = some cell

/-- A collection at this moment leaves alone whatever can be reached from a cell that somebody holds. -/
def Spares (m : Moment) : Prop :=
  ∀ c ∈ m.holders, ∀ h, m.store.Reaches (m.store.read c) h → m.store.collect.2.object? h = m.store.object? h

/-- What is so in a later store: nothing that was reclaimed is back, and a cell that is still there is bound to the same
handle, whose slot is there if it was there before. -/
structure Foretells (m : Moment) (later : Store) : Prop where
  reclaimed : ∀ h, m.store.Issued h → m.store.isLive h = false → later.isLive h = false
  bound : ∀ c h cell, m.store.binding? c = some h → later.cell? c = some cell → later.binding? c = some h
  live : ∀ c h cell, m.store.binding? c = some h → m.store.isLive h = true → later.cell? c = some cell →
    later.isLive h = true

end Moment

/-- What is so in a later store when a value came back: every slot that was there when the function returned is there,
the cells of the value are there, and a value that is not converted refers to the handle that was returned. -/
structure Store.Receives (autoConvert : Bool) (returned : Handle × Store) (v : Value CellId) (later : Store) :
    Prop where
  live : ∀ h, returned.2.isLive h = true → later.isLive h = true
  cells : ∀ c ∈ v.references, ∃ cell, later.cell? c = some cell
  plain : autoConvert = false → ∃ c, v = .foreign c ∧ later.read c = returned.1

namespace Ledger

variable {L : Ledger} {s t : Store} {o o' : Multiset CellId} {R U R' : Multiset Handle} {m : Moment}

theorem Sound.accounts (sound : Sound ⟨m.store, m.held, R, U⟩) : m.Accounts := fun _ => sound.holds_iff

theorem Sound.spares (sound : Sound ⟨m.store, m.held, R, 0⟩) : m.Spares := by
  intro c _ h reaches
  rw [Store.object?_collect]
  exact sound.sweep_keeps (Multiset.notMem_zero _) reaches

theorem Evolves.foretells (evolves : Evolves ⟨m.store, m.held, R, U⟩ ⟨t, o, R', 0⟩)
    (sound : Sound ⟨m.store, m.held, R, U⟩) : m.Foretells t where
  reclaimed := by
    intro h issued dead
    by_contra live
    have was := evolves.isLive (h := h) issued (by simpa using live)
    simp [dead] at was
  bound := fun c h cell bound there => evolves.binding bound there
  live := fun c h cell bound live there => evolves.isLive_of_held sound rfl bound live there

theorem receive_plain (b : Bridge) {h : Handle} {v : Value CellId} (ok : (b.receive false h s).1 = .ok v) :
    ∃ c, v = .foreign c ∧ (b.receive false h s).2.binding? c = some h := by
  refine ⟨(s.hold h).1, (Except.ok.inj ok).symm, ?_⟩
  exact Store.binding?_hold_self s h

theorem leave_plain (b : Bridge) (cells : List CellId) {f : Store → Handle × Store} {v : Value CellId}
    (ok : (b.leave false cells (s.crossing f)).1 = .ok v) :
    ∃ c, v = .foreign c ∧ (b.leave false cells (s.crossing f)).2.binding? c = some (f s).1 := by
  have same : ∀ h, (s.crossing f).1 = .ok h → h = (f s).1 := fun h => crossing_fst
  generalize s.crossing f = result at ok same ⊢
  obtain ⟨outcome, t⟩ := result
  cases outcome with
  | error e => cases ok
  | ok h =>
    rw [← same h rfl]
    exact receive_plain b ok

end Ledger

namespace Session

open Ledger

/-! ### Values that come back -/

section returns

variable {L : Ledger} {ms : List Moment} {s s' : Session} {v : Value CellId} {name : String} {st : Step}

theorem persists_releaseAll (cells : List CellId) (c : CellId) : ∀ t : Store, Persists t (t.releaseAll cells) c := by
  induction cells with
  | nil => exact fun t => persists_of_eq rfl
  | cons d cells ih => exact fun t => (persists_release t c d).trans (ih (t.release d))

/-- The end of a step releases cells, and nothing else. -/
theorem store_step {b : Binding} (performed : (Action.perform st).run s = (.ok b, s')) :
    (s.step st (some name)).2.store = (s'.store.releaseAll (s'.heldBy name)).releaseAll s'.temporaries := by
  rw [step_of_ok performed]
  rfl

theorem mem_holdings_step (performed : (Action.perform st).run s = (.ok (.value v), s')) {c : CellId}
    (hc : c ∈ v.references) : c ∈ (s.step st (some name)).2.holdings := by
  rw [step_of_ok performed]
  apply Action.mem_holdings_of_binding
  have found : Keyed.get? name (s'.bindings.insert name (.value v)) = some (.value v) := by
    rw [Keyed.get?_insert, if_pos rfl]
  have inside : c ∈ (Binding.value v).cells := hc
  exact Action.mem_contents (Keyed.mem_of_get? found) inside

/-- What a step receives is still there when it has gone into a variable. -/
theorem receives_step {autoConvert : Bool} {returned : Handle × Store}
    (performed : (Action.perform st).run s = (.ok (.value v), s')) (after : At L ms (s.step st (some name)).2 0)
    (live : ∀ h, returned.2.isLive h = true → s'.store.isLive h = true)
    (plain : autoConvert = false → ∃ c, v = .foreign c ∧ s'.store.binding? c = some returned.1) :
    Store.Receives autoConvert returned v (s.step st (some name)).2.store := by
  have cells : ∀ c ∈ v.references, ∃ cell, (s.step st (some name)).2.store.cell? c = some cell := by
    intro c hc
    obtain ⟨R, U, sound⟩ := after.sound
    apply sound.holds_iff.mp
    exact Multiset.mem_add.mpr (.inl (Multiset.mem_add.mpr (.inr (mem_holdings_step performed hc))))
  refine ⟨fun h was => ?_, cells, fun raw => ?_⟩
  · rw [store_step performed]
    obtain ⟨slot, hs⟩ := Store.isLive_iff.mp (live h was)
    have there := Store.object?_eq_some.mpr ⟨slot, hs, rfl⟩
    apply Store.isLive_of_object? (o := slot.object)
    rw [Store.object?_releaseAll, Store.object?_releaseAll, there]
  · obtain ⟨c, rfl, bound⟩ := plain raw
    refine ⟨c, rfl, Store.read_of_binding? ?_⟩
    obtain ⟨cell, there⟩ := cells c List.mem_cons_self
    rw [Store.binding?_of_cell? there]
    rw [store_step performed] at there
    obtain ⟨middle, hm, kept⟩ := persists_releaseAll s'.temporaries c _ cell there
    obtain ⟨first, hf, kept'⟩ := persists_releaseAll (s'.heldBy name) c _ middle hm
    exact kept _ (kept' _ (by rwa [← Store.binding?_of_cell? hf]))

theorem At.holdings_sound {p : Multiset CellId} (at' : At L ms s p) (none : p = 0) :
    ∃ R U, Sound ⟨s.store, s.holdings, R, U⟩ := by
  obtain ⟨R, U, sound⟩ := at'.sound
  unfold ledger at sound
  rw [none, zero_add] at sound
  exact ⟨R, U, sound⟩

theorem receives_leave {b : Bridge} {auto : Bool} {held : List CellId} {f : Store → Handle × Store} {t : Store}
    {o : Multiset CellId} {R U : Multiset Handle}
    (performed : (Action.perform st).run s =
      (.ok (.value v), { s' with store := (b.leave auto held (t.crossing f)).2 }))
    (after : At L ms (s.step st (some name)).2 0) (sound : Sound ⟨(f t).2, held + o, R, U⟩)
    (issued : (f t).2.Issued (f t).1) (ok : (b.leave auto held (t.crossing f)).1 = .ok v) :
    Store.Receives auto (f t) v (s.step st (some name)).2.store := by
  have left := moves_leave b auto held sound issued
  apply receives_step performed after
  · intro h live
    obtain ⟨slot, hs⟩ := Store.isLive_iff.mp live
    exact (left.isLive_eq (Store.issued_of_slot? hs)).trans live
  · rintro rfl
    exact leave_plain b held ok

/-- **A call hands back nothing that has gone since the function returned.** -/
theorem receives_invoke {f : ValueInput} {args : List ValueInput} {x : Callable × List (Value CellId)}
    {held : List CellId} {t : Store} (at' : At L ms s 0) (passes : ∀ m ∈ s.moments (.invoke f args), m.Passes)
    (inputs : (Action.callInputs f args).run s = (.ok x, s'))
    (entered : s'.bridge.enter x.1 x.2 s'.store = (.ok held, t))
    (ok : (s'.bridge.invoke x.1 x.2 s'.store).1 = .ok v) : Store.Receives x.1.autoConvert
      (t.call (t.read x.1.cell) (held.map t.read)) v (s.step (.invoke f args) (some name)).2.store := by
  have named := passes _ List.mem_cons_self
  obtain ⟨at₁, _, args'⟩ := (Action.resolves_callInputs f args at' named).of_ok inputs
  have later : ∀ m ∈ s'.bridge.callMoments x.1 x.2 s'.holdings s'.store, m.Passes := by
    intro m hm
    apply passes m (List.mem_cons_of_mem _ _)
    show m ∈ (Action.callInputs f args).followed _ s
    unfold Action.followed
    rwa [inputs]
  have performed : (Action.perform (.invoke f args)).run s =
      (.ok (.value v), { s' with store := (s'.bridge.invoke x.1 x.2 s'.store).2 }) := by
    unfold Action.perform
    rw [Action.run_bind, inputs]
    show (Action.tryStore .bridge (s'.bridge.invoke x.1 x.2) >>= fun v => (pure (.value v) : Action Binding)).run s' = _
    rw [Action.run_bind, Action.run_tryStore ok]
    rfl
  obtain ⟨R, U, sound⟩ := at₁.holdings_sound rfl
  have first := (gives_enter s'.bridge x.1 x.2 sound args').of_ok entered
  have sound' := first.sound sound
  unfold Bridge.callMoments at later
  rw [entered] at later
  rw [id, Multiset.coe_add] at first sound'
  obtain ⟨⟨R', U', along⟩, issued⟩ := along_call sound' (sound'.issued_read x.1.cell)
    (sound'.issued_reads held) later
  rw [← Multiset.coe_add] at along sound'
  rw [Bridge.invoke_of_entered entered] at performed ok
  exact receives_leave performed (at_step _ (some name) at' passes) (along.evolves.sound sound') issued ok

/-- **A field hands back nothing that has gone since it was read.** -/
theorem receives_readField {input : ValueInput} {field : String} {auto : Bool} {w : Value CellId} {c : CellId}
    (at' : At L ms s 0) (passes : ∀ m ∈ s.moments (.readField input field auto), m.Passes)
    (found : (Action.value input).run s = (.ok w, s')) (there : w.reference? = some c)
    (ok : (s'.bridge.readField w field auto s'.store).1 = .ok v) : Store.Receives auto
      (s'.store.readField (s'.store.read c) field) v (s.step (.readField input field auto) (some name)).2.store := by
  have named := passes _ List.mem_cons_self
  obtain ⟨at₁, _, _⟩ := (Action.resolves_value input at' named).of_ok found
  have performed : (Action.perform (.readField input field auto)).run s =
      (.ok (.value v), { s' with store := (s'.bridge.readField w field auto s'.store).2 }) := by
    unfold Action.perform
    rw [Action.run_bind, found]
    show (Action.tryStore .bridge (s'.bridge.readField w field auto) >>= fun v =>
      (pure (.value v) : Action Binding)).run s' = _
    rw [Action.run_bind, Action.run_tryStore ok]
    rfl
  obtain ⟨R, U, sound⟩ := at₁.holdings_sound rfl
  have read := moves_readField (s := s'.store) (o := s'.holdings) (r := R) (u := U) (s'.store.read c) field
  have sound' := read.sound sound
  rw [← zero_add (s'.holdings : Multiset CellId), ← Multiset.coe_nil] at sound'
  have issued := issued_readField sound.closed (s'.store.read c) field
  rw [Bridge.readField_of_reference? there] at performed ok
  exact receives_leave performed (at_step _ (some name) at' passes) sound' issued ok

end returns

/-! ### Whole runs -/

section runs

variable {version : Version} {families : List String} {policy : ConversionPolicy} {stack : ℕ} {script : Script}

/-- A session that is reached from the start by the first part of a script. -/
theorem at_prefix {before after : Script}
    (passes : ∀ m ∈ (start version families policy stack).history (before ++ after), m.Passes) :
    At (Ledger.initial version stack) ((start version families policy stack).history before)
      ((start version families policy stack).run before) 0 ∧
    ∀ m ∈ ((start version families policy stack).run before).history after, m.Passes := by
  rw [history_append] at passes
  have reached := at_run before (at_start version families policy stack) fun m hm => passes m (List.mem_append_left _ hm)
  rw [List.nil_append] at reached
  exact ⟨reached, fun m hm => passes m (List.mem_append_right _ hm)⟩

theorem at_end (passes : ∀ m ∈ (start version families policy stack).history script, m.Passes) :
    At (Ledger.initial version stack) ((start version families policy stack).history script)
      ((start version families policy stack).run script) 0 := by
  have reached := at_run script (at_start version families policy stack) passes
  rwa [List.nil_append] at reached

/-- The ledger at a moment of a run. -/
theorem sound_moment {pre post : List Moment} {m : Moment}
    (passes : ∀ m ∈ (start version families policy stack).history script, m.Passes)
    (split : (start version families policy stack).history script = pre ++ m :: post) :
    Sound ⟨m.store, m.held, Moment.rootedIn pre, Moment.unrootedIn pre⟩ := by
  obtain ⟨R, U, along⟩ := (at_end passes).along
  have reached := along.at_moment split
  have sound := reached.sound (sound_initial version stack)
  simpa [Ledger.initial] using sound

/-- **Collections spare what is held.** In every run in which the handles that are passed in were handed out and roots
are given back only with their cells: at every moment the cells that are there are those that somebody holds, and a
collection leaves alone what can be reached from them; nothing that was reclaimed comes back, and the slot of a cell
is there as long as the cell is; what a call or a field hands back is there after the step if it was there when the
function returned; and no slot is given a handle that was handed out before. -/
theorem collections_spare_held (version : Version) (families : List String) (policy : ConversionPolicy) (stack : ℕ)
    (script : Script) (passes : ∀ m ∈ (start version families policy stack).history script, m.Passes)
    (finalizers : ∀ m ∈ (start version families policy stack).history script, m.act.unroots = false) :
    (∀ m ∈ (start version families policy stack).history script, m.Accounts ∧ m.Spares) ∧
    (∀ pre m post, (start version families policy stack).history script = pre ++ m :: post →
      (∀ later ∈ post, m.Foretells later.store) ∧ m.Foretells ((start version families policy stack).run script).store) ∧
    (∀ before f args name after, script = before ++ (.invoke f args, some name) :: after →
      let s := (start version families policy stack).run before
      ∀ x s' held t v, (Action.callInputs f args).run s = (.ok x, s') →
        s'.bridge.enter x.1 x.2 s'.store = (.ok held, t) → (s'.bridge.invoke x.1 x.2 s'.store).1 = .ok v →
        Store.Receives x.1.autoConvert (t.call (t.read x.1.cell) (held.map t.read)) v
          (s.step (.invoke f args) (some name)).2.store) ∧
    (∀ before input field auto name after, script = before ++ (.readField input field auto, some name) :: after →
      let s := (start version families policy stack).run before
      ∀ w s' c v, (Action.value input).run s = (.ok w, s') → w.reference? = some c →
        (s'.bridge.readField w field auto s'.store).1 = .ok v →
        Store.Receives auto (s'.store.readField (s'.store.read c) field) v
          (s.step (.readField input field auto) (some name)).2.store) ∧
    (∀ m ∈ (start version families policy stack).history script,
      ∀ object, ¬ m.store.Issued (m.store.allocate object).1) := by
  refine ⟨fun m hm => ?_, fun pre m post split => ?_, ?_, ?_, fun m _ object => ?_⟩
  · obtain ⟨pre, post, split⟩ := List.append_of_mem hm
    have sound := sound_moment passes split
    rw [Moment.unrootedIn_eq_zero fun n hn => finalizers n (split ▸ List.mem_append_left _ hn)] at sound
    exact ⟨sound.accounts, sound.spares⟩
  · obtain ⟨R, U, along⟩ := (at_end passes).along
    have sound := sound_moment passes split
    have none : ∀ ns : List Moment, (∀ n ∈ ns, n ∈ (start version families policy stack).history script) →
        Moment.unrootedIn ns = 0 := fun ns inside => Moment.unrootedIn_eq_zero fun n hn => finalizers n (inside n hn)
    constructor
    · intro later hl
      obtain ⟨mid, rest, rfl⟩ := List.append_of_mem hl
      obtain ⟨R', evolves⟩ := along.later_moment split
      have last : Moment.unrootedIn (pre ++ m :: mid) + (Ledger.initial version stack).unrooted = 0 := by
        rw [none _ fun n hn => split ▸ by simp only [List.mem_append, List.mem_cons] at hn ⊢; tauto]
        rfl
      rw [last] at evolves
      simp only [Ledger.initial, add_zero] at evolves
      exact evolves.foretells sound
    · obtain ⟨t, o, act, rest⟩ := along.from_moment split
      have last : U = 0 := by
        rw [show U = _ from rest.unrooted_eq, none post fun n hn => split ▸ by simp [hn],
          none (pre ++ [m]) fun n hn => split ▸ by simp only [List.mem_append, List.mem_cons] at hn ⊢; tauto]
        rfl
      have evolves := act.trans rest.evolves
      simp only [Ledger.initial, add_zero] at evolves
      subst last
      exact evolves.foretells sound
  · rintro before f args name after rfl s x s' held t v inputs entered ok
    obtain ⟨at', later⟩ := at_prefix passes
    exact receives_invoke at' (fun m hm => later m (List.mem_append_left _ hm)) inputs entered ok
  · rintro before input field auto name after rfl s w s' c v found there ok
    obtain ⟨at', later⟩ := at_prefix passes
    exact receives_readField at' (fun m hm => later m (List.mem_append_left _ hm)) found there ok
  · rw [Store.allocate_fst]
    exact Store.not_issued_nextHandle m.store

/-- A call of a function that makes a slot, and a collection after it. -/
def callThenCollect : Script :=
  [(.defineFunction "" "make" (.custom [] fun _ => .ask (.construct (.int 1)) fun h => .done h), some "f"),
    (.begin, none), (.complete, none),
    (.invoke (.function (.fresh (.named "f")) false) [.int 2], some "v"), (.collect, none)]

theorem collections_spare_held_callThenCollect :
    let first := start ⟨1, 0, 0, [], []⟩ [] .full
    (∀ m ∈ first.history callThenCollect, m.Passes ∧ m.act.unroots = false) ∧
    (∀ m ∈ first.history callThenCollect, m.Accounts ∧ m.Spares) :=
  ⟨by decide +kernel, (collections_spare_held ⟨1, 0, 0, [], []⟩ [] .full _ callThenCollect (by decide +kernel)
    (by decide +kernel)).1⟩

end runs

end Session

end ForeignBridge
