import ForeignBridge.Proofs.Custody
import ForeignBridge.Proofs.Encodings

/-! # Host values come back from the foreign store as they were

A value that was converted to the foreign store is read back as it was, from its handle and with the same policy, at
once and as long as the cell of the conversion is held (`conversions_round_trip`): only its outermost slot has a root,
but nothing changes or reclaims what is below it. That takes handles that were handed out, since a cell that was bound
too early gives back a root that it never took (`early_cells_lose_conversions`). -/

namespace ForeignBridge

open ConversionPolicy

/-! ### At once -/

namespace ConversionPolicy

variable {p : ConversionPolicy} {v : Value CellId} {s t : Store} {c : CellId} {h : Handle}

theorem fromForeign_of_encodes (ordered : v.Ordered) (fits : p.nesting v ≤ p.maxDepth) (encodes : p.Encodes s v h) :
    (p.fromForeign h s).1 = .ok v := by
  obtain ⟨t, decoded, _⟩ := fromForeignWithin_of_encodes v ordered (Nat.lt_succ_of_le fits) encodes
  exact congrArg Prod.fst decoded

theorem placed_of_toForeign (plain : p.isPlain v = true) (ok : p.toForeign v s = (.ok c, t)) :
    p.nesting v ≤ p.maxDepth ∧ p.Placed s t v c := by
  have converts := converts_toForeign plain s
  rw [ok] at converts
  cases converts with
  | placed _ _ fits placed => exact ⟨Nat.zero_add (p.nesting v) ▸ fits, placed⟩

/-- **A conversion fails exactly for a value that is nested too deep.** -/
theorem toForeign_error_iff (plain : p.isPlain v = true) (e : BridgeError) :
    (p.toForeign v s).1 = .error e ↔ p.maxDepth < p.nesting v ∧ e = .tooDeep p.maxDepth := by
  have converts := converts_toForeign plain s
  generalize p.toForeign v s = result at converts ⊢
  cases converts with
  | deep t exceeds =>
    rw [Nat.zero_add] at exceeds
    simp only [Except.error.injEq, exceeds, true_and]
    exact eq_comm
  | placed c t fits placed =>
    rw [Nat.zero_add] at fits
    simp only [reduceCtorEq, false_iff, not_and]
    exact fun exceeds => absurd fits (not_le.mpr exceeds)

end ConversionPolicy

/-! ### As long as the cell is held -/

namespace Ledger

variable {L L' : Ledger} {p : ConversionPolicy} {v : Value CellId} {c : CellId} {h : Handle}

theorem Move.agrees (move : Move L L') (h : Handle) : Agrees L.store L'.store h := fun _ _ _ found => move.value found

/-- **What a held cell refers to keeps holding its value.** -/
theorem Evolves.encodes (evolves : Evolves L L') (sound : L.Sound) (bound : L.store.binding? c = some h)
    (free : h ∉ L'.unrooted) (there : ∃ cell, L'.store.cell? c = some cell) (encodes : p.Encodes L.store v h) :
    p.Encodes L'.store v h := by
  induction evolves with
  | refl => exact encodes
  | @tail M N before last ih =>
    obtain ⟨later, hl⟩ := there
    obtain ⟨_, hc, _⟩ := Store.cell?_of_binding? bound
    have early := (Store.lt_of_cell? hc).trans_le (Evolves.cells_le before)
    have whole : Evolves M N := Relation.ReflTransGen.single last
    obtain ⟨middle, hm, _⟩ := whole.persists early later hl
    have freeThen : h ∉ M.unrooted := fun inside => free (Multiset.mem_of_le (step_unrooted_le last) inside)
    have encodesThen := ih freeThen ⟨middle, hm⟩
    refine Encodes.mono v ?_ encodesThen
    rcases last with move | sweep
    · exact move.agrees h
    · have read := Store.read_of_binding? (Evolves.binding before bound hm)
      have soundThen := Evolves.sound before sound
      cases sweep with
      | sweep s o r u =>
        intro k data reaches found
        exact (soundThen.sweep_keeps (c := c) (read.symm ▸ freeThen) (read.symm ▸ reaches)).trans found

/-- **A converted value can be read back as long as its cell is held.** -/
theorem Evolves.fromForeign (evolves : Evolves L L') (sound : L.Sound) (ordered : v.Ordered)
    (fits : p.nesting v ≤ p.maxDepth) (bound : L.store.binding? c = some h) (free : h ∉ L'.unrooted)
    (there : ∃ cell, L'.store.cell? c = some cell) (encodes : p.Encodes L.store v h) :
    (p.fromForeign (L'.store.read c) L'.store).1 = .ok v := by
  obtain ⟨_, found⟩ := there
  rw [Store.read_of_binding? (evolves.binding bound found)]
  exact fromForeign_of_encodes ordered fits (evolves.encodes sound bound free ⟨_, found⟩ encodes)

end Ledger

namespace Session

open Ledger

variable {L : Ledger} {ms : List Moment} {s s' : Session} {p : ConversionPolicy} {v : Value CellId} {c : CellId}
  {input : ValueInput} {policy : Option ConversionPolicy} {t : Store}

/-- A session right after a conversion, as the start of what follows. No root was given back directly to a slot that
is new. -/
theorem at_converted (at' : At L ms s 0) (held : ∀ d ∈ v.references, d ∈ s.holdings)
    (ok : p.toForeign v s.store = (.ok c, t)) : ∃ R U, (∀ h ∈ U, s.store.Issued h) ∧
      At ⟨t, ([c] : List CellId) + s.holdings, R, U⟩ [] { s with store := t } ([c] : List CellId) := by
  obtain ⟨R, U, sound⟩ := at'.holdings_sound rfl
  have moves := (gives_toForeign p v sound held).of_ok ok
  refine ⟨R, U, sound.unrooted, moves.sound sound, ⟨R, U, .nil (.refl _)⟩, ?_⟩
  exact ⟨at'.tidy.bindings, at'.tidy.registry, at'.tidy.calls, at'.tidy_issued moves.lastId_le⟩

/-- The rest of the step puts the cell into a variable. -/
theorem at_stepped {M : Ledger} (name : String) (found : (Action.value input).run s = (.ok v, s'))
    (ok : (policy.getD s'.bridge.policy).toForeign v s'.store = (.ok c, t))
    (made : At M [] { s' with store := t } ([c] : List CellId)) :
    At M [] (s.step (.toForeign input policy) (some name)).2 0 := by
  have performed : (Action.perform (.toForeign input policy)).run s = (.ok (.cell c), { s' with store := t }) := by
    unfold Action.perform
    rw [Action.run_bind, found]
    show (Action.tryStore .bridge ((policy.getD s'.bridge.policy).toForeign v) >>= fun c =>
      (pure (.cell c) : Action Binding)).run s' = _
    rw [Action.run_bind, Action.run_tryStore (x := c) (by rw [ok]), ok]
    rfl
  rw [step_of_ok performed]
  have into : At M [] ({ s' with store := t }.assign name (.cell c)) 0 :=
    At.assign (b := .cell c) made name fun h hh => absurd hh List.not_mem_nil
  exact into.endStep

/-- What is read back from the cell later in a run. -/
theorem fromForeign_later {M : Ledger} {ns : List Moment} {last : Session} {w : Store} (ordered : v.Ordered)
    (placed : p.Placed w M.store v c) (fits : p.nesting v ≤ p.maxDepth) (reached : At M ns last 0)
    (early : M.store.read c ∉ M.unrooted) :
    (∀ pre m post, ns = pre ++ m :: post → (∀ n ∈ pre, M.store.read c ∉ n.act.unrooted) → c ∈ m.holders →
      (p.fromForeign (m.store.read c) m.store).1 = .ok v) ∧
    ((∀ n ∈ ns, M.store.read c ∉ n.act.unrooted) → c ∈ (last.holdings : Multiset CellId) + last.store.boxed →
      (p.fromForeign (last.store.read c) last.store).1 = .ok v) := by
  obtain ⟨R, U, along⟩ := reached.along
  constructor
  · rintro pre m post split kept held
    have evolves := along.at_moment split
    have there := (evolves.sound reached.start).holds_iff.mp held
    refine evolves.fromForeign reached.start ordered fits placed.bound ?_ there placed.encodes
    exact fun inside => (Multiset.mem_add.mp inside).elim (Moment.notMem_unrootedIn kept) early
  · intro kept held
    have evolves := along.evolves
    have sound := evolves.sound reached.start
    unfold ledger at evolves sound
    rw [zero_add] at evolves sound
    refine evolves.fromForeign reached.start ordered fits placed.bound ?_ (sound.holds_iff.mp held) placed.encodes
    have unrooted := along.unrooted_eq
    unfold ledger at unrooted
    rw [unrooted]
    exact fun inside => (Multiset.mem_add.mp inside).elim (Moment.notMem_unrootedIn kept) early

/-- **Host values come back as they were.** A value without foreign objects and functions where the policy looks,
whose records ascend, is refused exactly if it is nested deeper than the policy allows, over any store. Otherwise the
handle of the conversion gives it back at once, over any store; and later on in any evolution and in any run, as long
as the cell of the conversion is held and no root of that slot was given back without a cell. -/
theorem conversions_round_trip (p : ConversionPolicy) (v : Value CellId) (plain : p.isPlain v = true)
    (ordered : v.Ordered) :
    (∀ s e, (p.toForeign v s).1 = .error e ↔ p.maxDepth < p.nesting v ∧ e = .tooDeep p.maxDepth) ∧
    (∀ s c t, p.toForeign v s = (.ok c, t) → (p.fromForeign (t.read c) t).1 = .ok v) ∧
    (∀ s t o R U c later, Sound ⟨s, o, R, U⟩ → (∀ d ∈ v.references, d ∈ o) → p.toForeign v s = (.ok c, t) →
      Evolves ⟨t, c ::ₘ o, R, U⟩ later → t.read c ∉ later.unrooted → later.Holds c →
      (p.fromForeign (later.store.read c) later.store).1 = .ok v) ∧
    (∀ version families policy stack before input choice name after,
      (∀ m ∈ (start version families policy stack).history (before ++ (.toForeign input choice, some name) :: after),
        m.Passes) →
      let s := (start version families policy stack).run before
      let next := (s.step (.toForeign input choice) (some name)).2
      ∀ s' c t, (Action.value input).run s = (.ok v, s') → choice.getD s'.bridge.policy = p →
        p.toForeign v s'.store = (.ok c, t) →
        (∀ pre m post, next.history after = pre ++ m :: post → (∀ n ∈ pre, t.read c ∉ n.act.unrooted) →
          c ∈ m.holders → (p.fromForeign (m.store.read c) m.store).1 = .ok v) ∧
        ((∀ n ∈ next.history after, t.read c ∉ n.act.unrooted) →
          c ∈ ((next.run after).holdings : Multiset CellId) + (next.run after).store.boxed →
          (p.fromForeign ((next.run after).store.read c) (next.run after).store).1 = .ok v)) := by
  refine ⟨fun s e => toForeign_error_iff plain e, ?_, ?_, ?_⟩
  · intro s c t ok
    obtain ⟨fits, placed⟩ := placed_of_toForeign plain ok
    exact fromForeign_of_encodes ordered fits placed.encodes
  · intro s t o R U c later sound held ok evolves free holds
    obtain ⟨fits, placed⟩ := placed_of_toForeign plain ok
    have moves := (gives_toForeign p v sound held).of_ok ok
    rw [Multiset.coe_singleton, Multiset.singleton_add] at moves
    have sound' := moves.sound sound
    have there := (evolves.sound sound').holds_iff.mp holds
    exact evolves.fromForeign sound' ordered fits placed.bound free there placed.encodes
  · rintro version families policy stack before input choice name after passes s next s' c t found rfl ok
    obtain ⟨fits, placed⟩ := placed_of_toForeign plain ok
    obtain ⟨at', later⟩ := at_prefix passes
    have named := later _ (List.mem_append_left _ List.mem_cons_self)
    obtain ⟨at₁, _, kept⟩ := (Action.resolves_value input at' named).of_ok found
    obtain ⟨R, U, issued, made⟩ := at_converted at₁ (fun d hd => Action.mem_holdings (kept d hd)) ok
    have stepped := at_stepped name found ok made
    have reached := at_run after stepped fun m hm => later m (List.mem_append_right _ hm)
    rw [List.nil_append] at reached
    exact fromForeign_later ordered placed fits reached fun inside => placed.fresh (issued _ inside)

/-- A list with a record in it. -/
def listWithRecord : Value CellId := .list [.int 1, .record [("a", .list [.nil])]]

theorem conversions_round_trip_listWithRecord :
    let made := ConversionPolicy.full.toForeign listWithRecord (.ofVersion ⟨1, 0, 0, [], []⟩)
    ∃ c, made.1 = .ok c ∧ (ConversionPolicy.full.fromForeign (made.2.read c) made.2).1 = .ok listWithRecord := by
  have ascends : Keyed.Ascends [("a", (.list [.nil] : Value CellId))] := List.pairwise_singleton _ _
  have trip := conversions_round_trip .full listWithRecord (by decide +kernel)
    ⟨trivial, ⟨ascends, ⟨trivial, trivial⟩, trivial⟩, trivial⟩
  cases made : ConversionPolicy.full.toForeign listWithRecord (.ofVersion ⟨1, 0, 0, [], []⟩) with
  | mk outcome t =>
    cases outcome with
    | error e => exact absurd ((trip.1 _ e).mp (congrArg Prod.fst made)).1 (by decide +kernel)
    | ok c => exact ⟨c, rfl, trip.2.1 _ c t made⟩

/-- A cell that is bound to the third slot before that is there, and then belongs to a box that nothing refers to. -/
def boundTooEarly : Script :=
  [(.newBound (.number ⟨3⟩), some "e"), (.box (.foreign (.splice "e")), none), (.drop "e", none)]

/-- A number is then converted, and gets the third slot. -/
def convertedThen : Except BridgeError CellId × Store :=
  ConversionPolicy.full.toForeign (.int 7) ((start ⟨1, 0, 0, [], []⟩ [] .full).run boundTooEarly).store

/-- **A converted value can be lost though its cell is held.** The first collection reclaims the box, and its cell takes
the root of the slot along; the second one reclaims the slot. -/
theorem early_cells_lose_conversions :
    ConversionPolicy.full.isPlain (.int 7 : Value CellId) = true ∧ convertedThen.1 = .ok ⟨2⟩ ∧
      convertedThen.2.read ⟨2⟩ = ⟨3⟩ ∧
      let later := convertedThen.2.collect.2.collect.2
      (later.cell? ⟨2⟩).map Cell.holders = some 1 ∧ later.read ⟨2⟩ = ⟨3⟩ ∧ later.isLive ⟨3⟩ = false ∧
        (ConversionPolicy.full.fromForeign ⟨3⟩ later).1 = .ok (.foreign ⟨3⟩) := by
  refine ⟨by decide +kernel, by decide +kernel, by decide +kernel, ?_⟩
  exact ⟨by cbv, by cbv, by cbv, by cbv⟩

end Session

end ForeignBridge
