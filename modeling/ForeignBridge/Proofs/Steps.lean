import ForeignBridge.Proofs.Sessions

/-! # The steps of a session

The moments of a step are the host's own, at which it names handles by their numbers, and those of the call it makes,
if it makes one. Every step leads the ledger of the session along its moments, whatever its operation does and however
it fails (`along_step`); so every script does (`along_run`). -/

namespace ForeignBridge

namespace Session

/-- The handles that a step names by their numbers. -/
def Step.numbers : Step → List Handle
  | .defineFunction _ _ function => function.numbers
  | .defineGlobal _ _ data | .construct data | .raiseValue data => data.numbers
  | .create type fields => type.numbers ++ fields.flatMap fun field => field.2.numbers
  | .root h | .unroot h | .rootCount h | .isLive h | .describe h | .submodule h _ | .member h _ | .storeField h _
  | .isCallable h | .inspect h | .typeOf h | .holdObject h | .holdFunction h _ | .holdCell h | .fromForeign h _
  | .newBound h | .bind _ h | .hostType h => h.numbers
  | .storeCall h hs | .applyFamily h hs | .guardedCall h hs | .guardedApply h hs =>
    h.numbers ++ hs.flatMap HandleInput.numbers
  | .box v | .readField v _ _ | .toForeign v _ | .value v | .describeValue v | .typeOfValue v => valueNumbers v
  | .invoke f args => valueNumbers f ++ args.flatMap valueNumbers
  | .sameValue a b => valueNumbers a ++ valueNumbers b
  | .directCall _ args => args.flatMap valueNumbers
  | _ => []

/-- The step has no moments but the host's own. -/
def Step.isQuiet : Step → Bool
  | .root _ | .unroot _ | .collect | .storeCall _ _ | .guardedCall _ _ | .invoke _ _ | .directCall _ _ => false
  | _ => true

/-- The moments that follow an action, if it does not fail. -/
def Action.followed {α : Type} (a : Action α) (next : α → Session → List Moment) (s : Session) : List Moment :=
  match a.run s with
  | (.ok x, s') => next x s'
  | (.error _, _) => []

/-- The moments of a step besides the host's own: the request it makes directly, or those of the call it makes. -/
def requestMoments (s : Session) : Step → List Moment
  | .root h => (Action.handle h).followed (fun h s => [⟨s.store, s.holdings, .request (.root h)⟩]) s
  | .unroot h => (Action.handle h).followed (fun h s => [⟨s.store, s.holdings, .request (.unroot h)⟩]) s
  | .collect => [⟨s.store, s.holdings, .request .collect⟩]
  | .storeCall h args | .guardedCall h args =>
    (Action.callHandles h args).followed (fun x s => Store.callMoments s.holdings x.1 x.2 s.store) s
  | .invoke f args =>
    (Action.callInputs f args).followed (fun x s => s.bridge.callMoments x.1 x.2 s.holdings s.store) s
  | .directCall name args =>
    Action.followed (args.mapM Action.value)
      (fun args s => s.calls.callMoments name s.bridge s.registry args s.holdings s.store) s
  | _ => []

/-- The moments of a step, the host's own first. -/
def moments (s : Session) (st : Step) : List Moment :=
  ⟨s.store, s.holdings, .inputs st.numbers⟩ :: s.requestMoments st

namespace At

variable {L : Ledger} {ms ns : List Moment} {s s' : Session} {p q : Multiset CellId} {cells : List CellId} {t : Store}

/-! ### What a session may become -/

theorem become (at' : At L ms s p) (tidy : s'.Tidy) {before after : Multiset CellId} (hb : p + s.holdings = before)
    (ha : q + s'.holdings = after) (moves : ∀ R U, Ledger.Sound ⟨s.store, before, R, U⟩ →
      Ledger.Moves ⟨s.store, before, R, U⟩ ⟨s'.store, after, R, U⟩) : At L ms s' q := by
  subst hb ha
  obtain ⟨R, U, along⟩ := at'.along
  exact ⟨at'.start, ⟨R, U, along.after (moves R U (along.evolves.sound at'.start)).evolves⟩, tidy⟩

theorem tidy_issued (at' : At L ms s p) (last : s.store.lastId ≤ t.lastId) :
    ∀ e ∈ s.bindings, ∀ h ∈ e.2.handles, t.Issued h := fun e he h hh => (at'.tidy.known e he h hh).mono last

/-- The store evolves, and hands cells back. -/
theorem given (at' : At L ms s 0) (cells : List CellId)
    (moves : ∀ R U, Ledger.Sound ⟨s.store, s.holdings, R, U⟩ → Ledger.Moves ⟨s.store, s.holdings, R, U⟩
      ⟨t, cells + s.holdings, R, U⟩) : At L ms { s with store := t } cells := by
  obtain ⟨R, U, sound⟩ := at'.sound
  unfold ledger at sound
  rw [zero_add] at sound
  exact at'.become ⟨at'.tidy.bindings, at'.tidy.registry, at'.tidy.calls, at'.tidy_issued (moves R U sound).lastId_le⟩
    (zero_add _) rfl moves

/-- The store evolves, and the holders stay as they are. -/
theorem moved (at' : At L ms s 0)
    (moves : ∀ R U, Ledger.Sound ⟨s.store, s.holdings, R, U⟩ → Ledger.Moves ⟨s.store, s.holdings, R, U⟩
      ⟨t, s.holdings, R, U⟩) : At L ms { s with store := t } 0 := by
  apply at'.given []
  intro R U sound
  rw [Multiset.coe_nil, zero_add]
  exact moves R U sound

/-- The store evolves along further moments, and hands cells back. -/
theorem further (at' : At L ms s 0) (cells : List CellId)
    (along : ∀ R U, Ledger.Sound ⟨s.store, s.holdings, R, U⟩ → ∃ R' U', Ledger.Along ⟨s.store, s.holdings, R, U⟩ ns
      ⟨t, cells + s.holdings, R', U'⟩) : At L (ms ++ ns) { s with store := t } cells := by
  obtain ⟨R, U, before⟩ := at'.along
  have sound := before.evolves.sound at'.start
  unfold ledger at before sound
  rw [zero_add] at before sound
  obtain ⟨R', U', after⟩ := along R U sound
  exact ⟨at'.start, ⟨R', U', before.append after⟩, at'.tidy.bindings, at'.tidy.registry, at'.tidy.calls,
    at'.tidy_issued after.evolves.lastId_le⟩

/-- What a session holds besides its registry. -/
theorem holdings_registry (s : Session) : (s.holdings : Multiset CellId) = s.registry.cells +
    (Keyed.contents Binding.cells s.bindings + (s.calls.cells + s.temporaries) : Multiset CellId) := by
  unfold holdings
  simp only [← Multiset.coe_add]
  abel

/-- What a session holds besides its direct calls. -/
theorem holdings_calls (s : Session) : (s.holdings : Multiset CellId) = s.calls.cells +
    (Keyed.contents Binding.cells s.bindings + (s.registry.cells + s.temporaries) : Multiset CellId) := by
  unfold holdings
  simp only [← Multiset.coe_add]
  abel

/-- What a session holds besides its variables. -/
theorem holdings_bindings (s : Session) : (s.holdings : Multiset CellId) = Keyed.contents Binding.cells s.bindings +
    (s.registry.cells + (s.calls.cells + s.temporaries) : Multiset CellId) := by
  unfold holdings
  simp only [← Multiset.coe_add]
  abel

theorem setBridge (at' : At L ms s p) (b : Bridge) (r : Option Report) (g : Option InitGuard) :
    At L ms { s with bridge := b, report := r, guard := g } p :=
  ⟨at'.start, at'.along, at'.tidy.bindings, at'.tidy.registry, at'.tidy.calls, at'.tidy.known⟩

theorem endGuard (at' : At L ms s p) (ending : InitGuard → Bridge → Bridge) : At L ms (s.endGuard ending) p := by
  unfold Session.endGuard
  split
  · exact at'.setBridge _ s.report none
  · exact at'

/-- The registry changes with the store. -/
theorem registered (at' : At L ms s 0) {r : Registry} (ascends : r.Ascends)
    (moves : ∀ o R U, Ledger.Sound ⟨s.store, s.registry.cells + o, R, U⟩ →
      Ledger.Moves ⟨s.store, s.registry.cells + o, R, U⟩ ⟨t, r.cells + o, R, U⟩) :
    At L ms { s with store := t, registry := r } 0 := by
  have before := (zero_add (s.holdings : Multiset CellId)).trans (holdings_registry s)
  have after := (zero_add _).trans (holdings_registry { s with store := t, registry := r })
  obtain ⟨R, U, sound⟩ := at'.sound
  unfold ledger at sound
  rw [before] at sound
  refine at'.become ?_ before after fun R U => moves _ R U
  exact ⟨at'.tidy.bindings, ascends, at'.tidy.calls, at'.tidy_issued (moves _ R U sound).lastId_le⟩

/-- A pending registry takes the place of the old one, which is released. -/
theorem setRegistry {r : Registry} (at' : At L ms s r.cells) (ascends : r.Ascends) :
    At L ms { s with registry := r, store := s.store.releaseAll s.registry.cells } 0 := by
  have before : (r.cells : Multiset CellId) + s.holdings = s.registry.cells + (r.cells +
      (Keyed.contents Binding.cells s.bindings + (s.calls.cells + s.temporaries) : Multiset CellId)) := by
    rw [holdings_registry]
    abel
  have after := (zero_add _).trans
    (holdings_registry { s with registry := r, store := s.store.releaseAll s.registry.cells })
  have moves := fun R U => Ledger.moves_releaseAll (s := s.store) (r := R) (u := U) (o := r.cells +
    (Keyed.contents Binding.cells s.bindings + (s.calls.cells + s.temporaries) : Multiset CellId)) s.registry.cells
  refine at'.become ?_ before after fun R U _ => moves R U
  exact ⟨at'.tidy.bindings, ascends, at'.tidy.calls, at'.tidy_issued (moves 0 0).lastId_le⟩

/-- Pending direct calls take the place of the old ones, which are released. -/
theorem setCalls {d : DirectCalls} (at' : At L ms s d.cells) (ascends : Keyed.Ascends d.calls) :
    At L ms { s with calls := d, store := s.store.releaseAll s.calls.cells } 0 := by
  have before : (d.cells : Multiset CellId) + s.holdings = s.calls.cells + (d.cells +
      (Keyed.contents Binding.cells s.bindings + (s.registry.cells + s.temporaries) : Multiset CellId)) := by
    rw [holdings_calls]
    abel
  have after := (zero_add _).trans (holdings_calls { s with calls := d, store := s.store.releaseAll s.calls.cells })
  have moves := fun R U => Ledger.moves_releaseAll (s := s.store) (r := R) (u := U) (o := d.cells +
    (Keyed.contents Binding.cells s.bindings + (s.registry.cells + s.temporaries) : Multiset CellId)) s.calls.cells
  refine at'.become ?_ before after fun R U _ => moves R U
  exact ⟨at'.tidy.bindings, at'.tidy.registry, ascends, at'.tidy_issued (moves 0 0).lastId_le⟩

/-- A pending result goes into a variable; what was there before is released. -/
theorem assign {b : Binding} (at' : At L ms s b.cells) (name : String) (known : ∀ h ∈ b.handles, s.store.Issued h) :
    At L ms (s.assign name b) 0 := by
  have perm := Keyed.perm_contents_insert Binding.cells at'.tidy.bindings name b
  have before : (b.cells : Multiset CellId) + s.holdings = s.heldBy name +
      (Keyed.contents Binding.cells (s.bindings.insert name b) +
        (s.registry.cells + (s.calls.cells + s.temporaries)) : Multiset CellId) := by
    have both : (b.cells + Keyed.contents Binding.cells s.bindings : Multiset CellId) =
        s.heldBy name + Keyed.contents Binding.cells (s.bindings.insert name b) := Multiset.coe_eq_coe.mpr perm.symm
    rw [holdings_bindings, ← add_assoc, both, add_assoc]
  have after := (zero_add _).trans (holdings_bindings (s.assign name b))
  have moves := fun R U => Ledger.moves_releaseAll (s := s.store) (r := R) (u := U)
    (o := (Keyed.contents Binding.cells (s.bindings.insert name b) +
      (s.registry.cells + (s.calls.cells + s.temporaries)) : Multiset CellId)) (s.heldBy name)
  refine at'.become ⟨at'.tidy.bindings.insert name b, at'.tidy.registry, at'.tidy.calls, ?_⟩ before after
    fun R U _ => moves R U
  intro e he h hh
  rcases Keyed.mem_insert he with rfl | he
  · exact (known h hh).mono (moves 0 0).lastId_le
  · exact at'.tidy_issued (moves 0 0).lastId_le e he h hh

/-- A variable is removed, and what it held is released. -/
theorem unassign (at' : At L ms s 0) (name : String) : At L ms (s.unassign name) 0 := by
  have perm := Keyed.perm_contents_erase Binding.cells name s.bindings
  have before : (0 : Multiset CellId) + s.holdings = s.heldBy name +
      (Keyed.contents Binding.cells (s.bindings.erase name) +
        (s.registry.cells + (s.calls.cells + s.temporaries)) : Multiset CellId) := by
    have both : (Keyed.contents Binding.cells s.bindings : Multiset CellId) =
        s.heldBy name + Keyed.contents Binding.cells (s.bindings.erase name) := Multiset.coe_eq_coe.mpr perm.symm
    rw [zero_add, holdings_bindings, both, add_assoc]
  have after := (zero_add _).trans (holdings_bindings (s.unassign name))
  have moves := fun R U => Ledger.moves_releaseAll (s := s.store) (r := R) (u := U)
    (o := (Keyed.contents Binding.cells (s.bindings.erase name) +
      (s.registry.cells + (s.calls.cells + s.temporaries)) : Multiset CellId)) (s.heldBy name)
  refine at'.become ⟨at'.tidy.bindings.erase name, at'.tidy.registry, at'.tidy.calls, ?_⟩ before after
    fun R U _ => moves R U
  exact fun e he => at'.tidy_issued (moves 0 0).lastId_le e (Keyed.mem_erase he)

/-- What the step still keeps is released. -/
theorem endStep (at' : At L ms s 0) : At L ms s.endStep 0 := by
  have before : (0 : Multiset CellId) + s.holdings = s.temporaries +
      (Keyed.contents Binding.cells s.bindings + (s.registry.cells + s.calls.cells) : Multiset CellId) := by
    rw [holdings_bindings]
    abel
  have after : (0 : Multiset CellId) + s.endStep.holdings =
      (Keyed.contents Binding.cells s.bindings + (s.registry.cells + s.calls.cells) : Multiset CellId) := by
    rw [zero_add, holdings_bindings]
    show Multiset.ofList _ + (_ + (_ + (([] : List CellId) : Multiset CellId))) = _
    rw [Multiset.coe_nil, add_zero]
    rfl
  have moves := fun R U => Ledger.moves_releaseAll (s := s.store) (r := R) (u := U)
    (o := (Keyed.contents Binding.cells s.bindings + (s.registry.cells + s.calls.cells) : Multiset CellId))
    s.temporaries
  refine at'.become ?_ before after fun R U _ => moves R U
  exact ⟨at'.tidy.bindings, at'.tidy.registry, at'.tidy.calls, at'.tidy_issued (moves 0 0).lastId_le⟩

end At

namespace Action

variable {L : Ledger} {ms : List Moment} {s : Session}

/-! ### Results -/

/-- A result whose cells are on their way to a holder, and whose handles were handed out. -/
def Done (L : Ledger) (ms : List Moment) (b : Binding) (s : Session) : Prop :=
  At L ms s b.cells ∧ ∀ h ∈ b.handles, s.store.Issued h

/-- The action ends with a result, or fails without leaving anything behind. -/
def Performs (L : Ledger) (ms : List Moment) (s : Session) (a : Action Binding) : Prop :=
  Ensures a s (fun s' => At L ms s' 0) (Done L ms)

theorem performs_bind {α : Type} {P : α → Session → Prop} {a : Action α} {f : α → Action Binding}
    (first : Resolves L ms s P a)
    (second : ∀ x s', At L ms s' 0 → s.Extends s' → P x s' → Performs L ms s' (f x)) : Performs L ms s (a >>= f) := by
  apply ensures_bind
  exact first.imp (fun _ failed => failed) fun x s' ⟨at', grown, good⟩ => second x s' at' grown good

theorem performs_answer {a : Answer} (at' : At L ms s 0) : Performs L ms s (pure (.answer a)) :=
  ensures_pure ⟨at', fun _ hh => absurd hh List.not_mem_nil⟩

theorem performs_handle {h : Handle} (at' : At L ms s 0) (issued : s.store.Issued h) :
    Performs L ms s (pure (.handle h)) := by
  refine ensures_pure ⟨at', fun k hk => ?_⟩
  obtain rfl := List.mem_singleton.mp hk
  exact issued

theorem performs_asked {f : Store → Answer} (at' : At L ms s 0) : Performs L ms s (asked f) :=
  ensures_bind (ensures_ask (performs_answer at'))

theorem performs_finished {f : Store → Store} (at' : At L ms s 0) (moves : ∀ R U,
    Ledger.Sound ⟨s.store, s.holdings, R, U⟩ → Ledger.Moves ⟨s.store, s.holdings, R, U⟩ ⟨f s.store, s.holdings, R, U⟩) :
    Performs L ms s (finished f) :=
  ensures_bind (ensures_onStore (performs_answer (at'.moved moves)))

theorem performs_asHandle {f : Store → Handle × Store} (at' : At L ms s 0) (moves : ∀ R U,
    Ledger.Sound ⟨s.store, s.holdings, R, U⟩ →
    Ledger.Moves ⟨s.store, s.holdings, R, U⟩ ⟨(f s.store).2, s.holdings, R, U⟩ ∧ (f s.store).2.Issued (f s.store).1) :
    Performs L ms s (asHandle f) := by
  apply ensures_bind
  apply ensures_onStore
  obtain ⟨R, U, sound⟩ := at'.sound
  unfold ledger at sound
  rw [zero_add] at sound
  exact performs_handle (at'.moved fun R U sound => (moves R U sound).1) (moves R U sound).2

theorem performs_asCell {f : Store → CellId × Store} (at' : At L ms s 0) (moves : ∀ R U,
    Ledger.Sound ⟨s.store, s.holdings, R, U⟩ →
    Ledger.Moves ⟨s.store, s.holdings, R, U⟩ ⟨(f s.store).2, (f s.store).1 ::ₘ (s.holdings : Multiset CellId), R, U⟩) :
    Performs L ms s (asCell f) := by
  apply ensures_bind
  apply ensures_onStore
  refine ensures_pure ⟨at'.given _ fun R U sound => ?_, fun _ hh => absurd hh List.not_mem_nil⟩
  show Ledger.Moves _ ⟨_, (([(f s.store).1] : List CellId) : Multiset CellId) + s.holdings, R, U⟩
  rw [Multiset.coe_singleton, Multiset.singleton_add]
  exact moves R U sound

theorem performs_asValue {f : Store → Value CellId × Store} (at' : At L ms s 0) (moves : ∀ R U,
    Ledger.Sound ⟨s.store, s.holdings, R, U⟩ → Ledger.Moves ⟨s.store, s.holdings, R, U⟩
      ⟨(f s.store).2, ((f s.store).1.references : Multiset CellId) + s.holdings, R, U⟩) :
    Performs L ms s (asValue f) := by
  apply ensures_bind
  apply ensures_onStore
  exact ensures_pure ⟨at'.given _ moves, fun _ hh => absurd hh List.not_mem_nil⟩

/-- What an operation gives becomes a result, and what it leaves when it fails is nothing. -/
theorem performs_given {ε α : Type} {wrap : ε → StepError} {f : Store → Except ε α × Store} {cells : α → List CellId}
    (result : α → Binding) (same : ∀ x, (result x).cells = cells x) (plain : ∀ x, (result x).handles = [])
    (after : At L ms { s with store := (f s.store).2 } (handedBack cells (f s.store).1)) :
    Performs L ms s (do return result (← tryStore wrap f)) := by
  apply ensures_bind
  apply ensures_tryStore
  · intro e failed
    rw [failed] at after
    exact after
  · intro x ok
    rw [ok] at after
    refine ensures_pure ⟨?_, fun h hh => ?_⟩
    · rw [same]
      exact after
    · rw [plain] at hh
      cases hh

/-! ### Steps that resolve inputs -/

theorem performs_withHandle {input : HandleInput} {f : Handle → Action Binding} (at' : At L ms s 0)
    (passes : ∀ h ∈ input.numbers, s.store.Issued h)
    (next : ∀ h s', At L ms s' 0 → s'.store.Issued h → Performs L ms s' (f h)) :
    Performs L ms s (handle input >>= f) :=
  performs_bind (resolves_handle input at' passes) fun h s' at' _ issued => next h s' at' issued

theorem performs_withValue {input : ValueInput} {f : Value CellId → Action Binding} (at' : At L ms s 0)
    (passes : ∀ h ∈ valueNumbers input, s.store.Issued h)
    (next : ∀ v s', At L ms s' 0 → (∀ c ∈ v.references, c ∈ s'.holdings) → Performs L ms s' (f v)) :
    Performs L ms s (value input >>= f) :=
  performs_bind (resolves_value input at' passes) fun v s' at' _ kept =>
    next v s' at' fun c hc => mem_holdings (kept c hc)

theorem performs_withDatum {input : DatumInput} {f : Datum CellId → Action Binding} (at' : At L ms s 0)
    (passes : ∀ h ∈ input.numbers, s.store.Issued h)
    (next : ∀ data s', At L ms s' 0 → (∀ h ∈ data.handles, s'.store.Issued h) →
      (∀ c ∈ data.references, c ∈ (s'.holdings : Multiset CellId)) → Performs L ms s' (f data)) :
    Performs L ms s (datum input >>= f) :=
  performs_bind (resolves_datum input at' passes) fun data s' at' _ kept =>
    next data s' at' kept.2 fun c hc => mem_holdings (kept.1 c hc)

theorem performs_withHandles {head : HandleInput} {inputs : List HandleInput}
    {f : Handle → List Handle → Action Binding}
    (at' : At L ms s 0) (passes : ∀ h ∈ head.numbers ++ inputs.flatMap HandleInput.numbers, s.store.Issued h)
    (next : ∀ h hs s', At L ms s' 0 → s'.store.Issued h → (∀ k ∈ hs, s'.store.Issued k) → Performs L ms s' (f h hs)) :
    Performs L ms s (handle head >>= fun h => inputs.mapM handle >>= f h) := by
  apply performs_bind (resolves_handle head at' fun h hh => passes h (List.mem_append_left _ hh))
  intro h s' at' grown issued
  apply performs_bind (resolves_handles inputs at' fun k hk => grown.issued (passes k (List.mem_append_right _ hk)))
  exact fun hs s'' at'' grown' all => next h hs s'' at'' (grown'.issued issued) all

theorem resolves_lift {ε α : Type} {wrap : ε → StepError} {outcome : Except ε α} (at' : At L ms s 0) :
    Resolves L ms s (fun x s' => s' = s ∧ outcome = .ok x) (lift wrap outcome) :=
  ensures_lift at' fun _ ok => ⟨at', .refl s, rfl, ok⟩

theorem resolves_lookup_cell (name : String) (at' : At L ms s 0) :
    Resolves L ms s (fun c s' => c ∈ Keyed.contents Binding.cells s'.bindings) (cellOf name) := by
  apply resolves_bind (resolves_lookup name at')
  rintro b s' at' - ⟨rfl, found⟩
  cases b with
  | cell c => exact resolves_pure at' (mem_contents found List.mem_cons_self)
  | value v =>
    cases v with
    | foreign c | function c =>
      exact resolves_pure at' (mem_contents found List.mem_cons_self)
    | nil | bool | int | float | str | symbol | list | record => exact resolves_throw at'
  | handle | module | answer => exact resolves_throw at'

theorem performs_create (type : HandleInput) (fields : List (String × DatumInput)) (at' : At L ms s 0)
    (passes : ∀ h ∈ (Step.create type fields).numbers, s.store.Issued h) :
    Performs L ms s (perform (.create type fields)) := by
  unfold perform
  apply performs_bind (resolves_handle type at' fun h hh => passes h (List.mem_append_left _ hh))
  intro h s' at' grown issued
  refine performs_bind (resolves_mapM (P := fun (field : String × Datum CellId) s' => KeptDatum field.2 s')
    (fun kept grown => kept.mono grown) fields at' ?_) ?_
  · rintro ⟨name, input⟩ hi s'' at'' grown'
    have numbers : ∀ h ∈ input.numbers, s''.store.Issued h := fun h hh =>
      grown'.issued (grown.issued (passes h (List.mem_append_right _ (List.mem_flatMap.mpr ⟨(name, input), hi, hh⟩))))
    apply resolves_bind (resolves_datum input at'' numbers)
    exact fun data s₃ at₃ _ kept => resolves_pure at₃ kept
  · intro built s'' at'' grown' kept
    refine performs_asHandle at'' fun R U _ => ⟨?_, Ledger.issued_create _ _ _⟩
    refine Ledger.moves_create (grown'.issued issued) ?_ ?_
    · exact fun field hf => (kept field hf).2
    · exact fun field hf c hc => mem_holdings ((kept field hf).1 c hc)

theorem resolves_tryStore {ε α : Type} {wrap : ε → StepError} {f : Store → Except ε α × Store} (at' : At L ms s 0)
    (moves : ∀ R U, Ledger.Sound ⟨s.store, s.holdings, R, U⟩ → Ledger.Moves ⟨s.store, s.holdings, R, U⟩
      ⟨(f s.store).2, s.holdings, R, U⟩) : Resolves L ms s (fun _ _ => True) (tryStore wrap f) := by
  obtain ⟨R, U, sound⟩ := at'.sound
  unfold ledger at sound
  rw [zero_add] at sound
  have last := (moves R U sound).lastId_le
  refine ensures_tryStore (fun _ _ => at'.moved moves) fun _ _ => ?_
  exact ⟨at'.moved moves, ⟨rfl, List.Subset.refl _, last⟩, trivial⟩

theorem performs_bindCell (name : String) (h : HandleInput) (at' : At L ms s 0)
    (passes : ∀ k ∈ h.numbers, s.store.Issued k) : Performs L ms s (perform (.bind name h)) := by
  unfold perform
  apply performs_bind (resolves_lookup_cell name at')
  intro c s' at' grown there
  apply performs_bind (resolves_handle h at' fun k hk => grown.issued (passes k hk))
  intro k s'' at'' grown' issued
  refine performs_bind (resolves_tryStore at'' fun R U _ => ?_) fun _ s₃ at₃ _ _ => performs_answer at₃
  have held : c ∈ s''.holdings := mem_holdings_of_binding (grown'.bindings ▸ there)
  cases bound : s''.store.bind c k with
  | error existing => exact .refl _
  | ok t => exact (Ledger.Move.bind s''.store t _ R U c k (Multiset.mem_add.mpr (.inl held)) issued bound).moves

/-! ### Steps that register -/

theorem performs_tryRegistry {α : Type} {f : Registry → Store → Except RegistrationError α × Registry × Store}
    {next : α → Action Binding} (at' : At L ms s 0) (ascends : (f s.registry s.store).2.1.Ascends)
    (moves : ∀ o R U, Ledger.Sound ⟨s.store, s.registry.cells + o, R, U⟩ →
      Ledger.Moves ⟨s.store, s.registry.cells + o, R, U⟩
        ⟨(f s.registry s.store).2.2, (f s.registry s.store).2.1.cells + o, R, U⟩)
    (then' : ∀ x s', (f s.registry s.store).1 = .ok x → s'.store = (f s.registry s.store).2.2 → At L ms s' 0 →
      Performs L ms s' (next x)) :
    Performs L ms s (tryRegistry f >>= next) := by
  have after := at'.registered ascends moves
  apply ensures_bind
  unfold tryRegistry
  apply ensures_bind
  apply ensures_get
  generalize f s.registry s.store = result at after then' ⊢
  obtain ⟨outcome, r, t⟩ := result
  apply ensures_bind
  apply ensures_set
  cases outcome with
  | error e => exact after
  | ok x => exact then' x _ rfl rfl after

theorem performs_addFamily (t : Template) (at' : At L ms s 0) : Performs L ms s (perform (.addFamily t)) := by
  unfold perform
  obtain ⟨R, U, sound⟩ := at'.sound
  unfold ledger at sound
  rw [zero_add, At.holdings_registry] at sound
  have added := fun o R U => Ledger.moves_addFamily (o := o) (R := R) (U := U) t (sound.finds s.registry)
    at'.tidy.registry
  exact performs_tryRegistry at' (added 0 0 0).2 (fun o R U _ => (added o R U).1) fun _ _ _ _ at' => performs_answer at'

theorem performs_instantiate (text : String) (at' : At L ms s 0) : Performs L ms s (perform (.instantiate text)) := by
  unfold perform typeExpr
  apply performs_bind (resolves_lift at')
  rintro t s' at' - -
  obtain ⟨R, U, sound⟩ := at'.sound
  unfold ledger at sound
  rw [zero_add, At.holdings_registry] at sound
  have instantiates := fun o R U => Ledger.moves_instantiate (o := o) (R := R) (U := U) t (sound.finds s'.registry)
    at'.tidy.registry
  obtain ⟨_, ascends, issued⟩ := instantiates 0 R U
  refine performs_tryRegistry at' ascends (fun o R U _ => (instantiates o R U).1) fun h s'' ok same after => ?_
  exact performs_handle after (same ▸ issued h ok)

theorem resolves_settings (input : SettingsInput) (at' : At L ms s 0) :
    Resolves L ms s (fun _ _ => True) (settings input) := by
  cases input with
  | document source =>
    exact (resolves_lift at').imp (fun _ failed => failed) fun _ _ ⟨at', grown, _⟩ => ⟨at', grown, trivial⟩
  | lists disabled instances =>
    refine resolves_bind (resolves_mapM (P := fun _ _ => True) (fun _ _ => trivial) instances at' ?_) ?_
    · intro text _ s' at' _
      exact (resolves_lift at').imp (fun _ failed => failed) fun _ _ ⟨at', grown, _⟩ => ⟨at', grown, trivial⟩
    · exact fun _ s' at' _ _ => resolves_pure at' trivial

theorem ensures_setDirectCalls {Q : Unit → Session → Prop} {E : Session → Prop} (specs : List DirectCallSpec)
    (at' : At L ms s 0) (holds : ∀ s', At L ms s' 0 → Q () s') : Ensures (setDirectCalls specs) s E Q := by
  unfold setDirectCalls
  apply ensures_bind
  apply ensures_get
  apply ensures_set
  apply holds
  have moves := fun R U (_ : Ledger.Sound ⟨s.store, s.holdings, R, U⟩) =>
    (Ledger.moves_ofSpecs (s := s.store) (o := s.holdings) (R := R) (U := U) s.registry specs).1
  exact (at'.given _ moves).setCalls
    (Ledger.moves_ofSpecs (s := s.store) (o := s.holdings) (R := 0) (U := 0) s.registry specs).2

theorem performs_register (input : SettingsInput) (at' : At L ms s 0) :
    Performs L ms s (perform (.register input)) := by
  unfold perform
  apply ensures_bind
  refine Ensures.imp (Q := fun _ s' => At L ms s' 0) ?_ (fun _ failed => failed) fun _ s' at' => performs_answer at'
  unfold register
  apply ensures_bind
  refine (resolves_settings input at').imp (fun _ failed => failed) fun settings s' ⟨at', _, _⟩ => ?_
  apply ensures_bind
  apply ensures_get
  obtain ⟨R, U, sound⟩ := at'.sound
  unfold ledger at sound
  rw [zero_add] at sound
  have ascends := (Ledger.gives_register s'.bridge settings sound).2
  have given := at'.given _ fun R U sound => (Ledger.gives_register s'.bridge settings sound).1
  generalize s'.bridge.register settings s'.store = result at ascends given ⊢
  obtain ⟨outcome, t⟩ := result
  apply ensures_bind
  apply ensures_set
  apply ensures_bind
  cases outcome with
  | error e => exact given
  | ok done =>
    have placed := given.setRegistry (ascends done rfl)
    apply ensures_pure
    apply ensures_bind
    apply ensures_modify
    apply ensures_bind
    apply ensures_modify
    have opened := placed.setBridge done.bridge (some done.report) s'.guard
    dsimp only
    split
    · apply ensures_bind
      exact ensures_setDirectCalls _ opened fun _ at' => ensures_pure at'
    · exact ensures_pure opened

theorem performs_directCallsView (at' : At L ms s 0) :
    Ensures directCallsView s (fun s' => At L ms s' 0) fun a s' => Performs L ms s' (pure (.answer a)) :=
  ensures_bind (ensures_get (ensures_pure (performs_answer at')))

theorem performs_bindDirectCalls (inputs : List DirectCallInput) (at' : At L ms s 0) :
    Performs L ms s (perform (.bindDirectCalls inputs)) := by
  have types : ∀ {s : Session} (texts : List String), At L ms s 0 →
      Resolves L ms s (fun _ _ => True) (texts.mapM typeExpr) := by
    intro s texts at'
    refine (resolves_mapM (P := fun _ _ => True) (fun _ _ => trivial) texts at' ?_).imp (fun _ failed => failed)
      fun _ _ ⟨at', grown, _⟩ => ⟨at', grown, trivial⟩
    intro text _ s' at' _
    exact (resolves_lift at').imp (fun _ failed => failed) fun _ _ ⟨at', grown, _⟩ => ⟨at', grown, trivial⟩
  unfold perform
  refine performs_bind (resolves_mapM (P := fun _ _ => True) (fun _ _ => trivial) inputs at' ?_) ?_
  · intro input _ s' at' _
    refine resolves_bind (types input.params at') fun params s' at' _ _ => ?_
    cases input.returns with
    | none => exact resolves_pure at' trivial
    | some text =>
      rw [Option.mapM_some, map_eq_pure_bind]
      refine resolves_bind (P := fun _ _ => True) (resolves_bind (resolves_lift at') ?_) ?_
      · exact fun _ s' at' _ _ => resolves_pure at' trivial
      · exact fun _ s' at' _ _ => resolves_pure at' trivial
  · intro specs s' at' _ _
    apply ensures_bind
    refine ensures_setDirectCalls specs at' fun s'' at' => ?_
    exact ensures_bind (performs_directCallsView at')

theorem performs_copy (name : String) (at' : At L ms s 0) : Performs L ms s (perform (.copy name)) := by
  refine performs_bind (resolves_lookup name at') ?_
  rintro b s' at' - ⟨rfl, found⟩
  have given := at'.given _ fun R U _ => Ledger.moves_retainAll (r := R) (u := U) b.cells fun c hc =>
    Multiset.mem_add.mpr (.inl (mem_holdings_of_binding (mem_contents found hc)))
  exact ensures_bind (ensures_onStore (ensures_pure ⟨given, given.tidy.known _ found⟩))

/-- The handle that a crossing hands on becomes a result. -/
theorem performs_crossing {f : Store → Handle × Store} (at' : At L ms s 0) (moves : ∀ R U,
      Ledger.Sound ⟨s.store, s.holdings, R, U⟩ →
        Ledger.Moves ⟨s.store, s.holdings, R, U⟩ ⟨(f s.store).2, s.holdings, R, U⟩)
    (issued : (f s.store).2.Issued (f s.store).1) :
    Performs L ms s (do return .handle (← tryStore .bridge (Store.crossing f))) := by
  have after := at'.moved fun R U sound => Ledger.moves_crossing (moves R U sound)
  apply ensures_bind
  apply ensures_tryStore
  · exact fun _ _ => after
  · intro h ok
    exact performs_handle after (Ledger.issued_crossing issued (Prod.ext ok rfl))

/-! ### Every step -/

/-- The results of steps that make no call and touch no root directly. -/
theorem performs_quiet (st : Step) (quiet : st.isQuiet = true) (at' : At L ms s 0)
    (passes : ∀ h ∈ st.numbers, s.store.Issued h) : Performs L ms s (perform st) := by
  cases st with
  | root | unroot | collect | storeCall | guardedCall | invoke | directCall => cases quiet
  | provideFamily name =>
    exact performs_asHandle at' fun R U _ =>
      ⟨Ledger.moves_provideFamily name, Ledger.issued_provideFamily at'.closed name⟩
  | defineModule path => exact performs_asHandle at' fun R U sound => Ledger.moves_defineModule sound path
  | defineFunction path name input =>
    refine performs_bind (resolves_function input at' passes) fun f s' at' _ held => ?_
    exact performs_asHandle at' fun R U sound => Ledger.moves_defineFunction sound path name f.2 f.1 held
  | defineGlobal path name data =>
    refine performs_withDatum at' passes fun d s' at' issued held => ?_
    exact performs_asHandle at' fun R U sound => Ledger.moves_defineGlobal sound path name issued held
  | construct data =>
    refine performs_withDatum at' passes fun d s' at' issued held => ?_
    exact performs_asHandle at' fun R U _ => ⟨Ledger.moves_construct issued held, Ledger.issued_construct _ d⟩
  | create type fields => exact performs_create type fields at' passes
  | raise message => exact performs_finished at' fun R U _ => Ledger.moves_raiseMessage message
  | raiseValue data =>
    refine performs_withDatum at' passes fun d s' at' issued held => ?_
    exact performs_finished at' fun R U _ => Ledger.moves_raise issued held
  | recordCalls => exact performs_finished at' fun R U _ => (Ledger.Move.log s.store _ R U _ _).moves
  | clearFault => exact performs_finished at' fun R U _ => Ledger.moves_clearFault
  | callLog | slots | libraryVersion | family => exact performs_asked at'
  | rootCount h | isLive h | submodule h | member h | isCallable h =>
    exact performs_withHandle at' passes fun k s' at' _ => performs_asked at'
  | pendingFault =>
    have moved := at'.moved fun R U _ => Ledger.moves_pendingFault
    exact ensures_bind (ensures_onStore (performs_answer moved))
  | describe h =>
    refine performs_withHandle at' passes fun k s' at' _ => ?_
    exact ensures_bind (ensures_onStore (performs_answer (at'.moved fun R U _ => Ledger.moves_describe k)))
  | rootModule => exact performs_handle at' at'.closed.main
  | storeField h name =>
    refine performs_withHandle at' passes fun k s' at' _ => ?_
    refine performs_asHandle at' fun R U sound => ?_
    exact ⟨Ledger.moves_readField k name, Ledger.issued_readField sound.closed k name⟩
  | inspect h =>
    refine performs_withHandle at' passes fun k s' at' _ => ?_
    apply ensures_bind
    apply ensures_onStore
    refine performs_asked (at'.moved fun R U _ => ?_)
    rw [Store.inspect_snd]
    exact Ledger.moves_note _
  | typeOf h =>
    refine performs_withHandle at' passes fun k s' at' _ => ?_
    exact ensures_bind (ensures_ask (performs_handle at' (Ledger.issued_typeOf at'.closed k)))
  | applyFamily h params =>
    refine performs_withHandles at' passes fun k ks s' at' known issued => ?_
    have issued' := Ledger.issued_applyFamily known fun h (found : s'.store.applied? k ks = some h) =>
      Ledger.issued_applied? at'.closed found
    exact performs_asHandle at' fun R U _ => ⟨Ledger.moves_applyFamily known issued, issued'⟩
  | takeFault =>
    refine performs_bind (resolves_tryStore at' fun R U _ => Ledger.moves_takeFault) ?_
    exact fun _ s' at' _ _ => performs_answer at'
  | guardedApply h params =>
    refine performs_withHandles at' passes fun k ks s' at' known issued => ?_
    have issued' := Ledger.issued_applyFamily known fun h (found : s'.store.applied? k ks = some h) =>
      Ledger.issued_applied? at'.closed found
    exact performs_crossing at' (fun R U _ => Ledger.moves_applyFamily known issued) issued'
  | phase | policy | report | registeredFamily | registry => exact ensures_bind (ensures_get (performs_answer at'))
  | directCalls => exact ensures_bind (performs_directCallsView at')
  | begin =>
    apply ensures_bind
    apply ensures_get
    refine performs_bind (resolves_lift at') ?_
    rintro b s' at' - ⟨rfl, -⟩
    exact ensures_bind (ensures_modify (performs_answer (at'.setBridge b.2 s'.report (some b.1))))
  | complete | abandon => exact ensures_bind (ensures_modify (performs_answer (at'.endGuard _)))
  | holdObject h | holdFunction h auto =>
    refine performs_withHandle at' passes fun k s' at' issued => ?_
    exact performs_asValue at' fun R U _ => Ledger.gives_object issued
  | holdCell h | newBound h =>
    refine performs_withHandle at' passes fun k s' at' issued => ?_
    exact performs_asCell at' fun R U _ => Ledger.moves_hold issued
  | box v =>
    refine performs_withValue at' passes fun w s' at' held => ?_
    exact performs_asCell at' fun R U _ => Ledger.moves_place (fun h hh => absurd hh List.not_mem_nil) held
  | resolveModule path =>
    apply ensures_bind
    apply ensures_ask
    refine performs_bind (resolves_lift at') ?_
    rintro m s' at' - ⟨rfl, found⟩
    refine ensures_pure ⟨at', fun h hh => ?_⟩
    obtain rfl := List.mem_singleton.mp hh
    exact Ledger.issued_resolveModule at'.closed found
  | resolveMember name member =>
    refine performs_bind (resolves_lookup name at') ?_
    rintro b s' at' - ⟨rfl, -⟩
    cases b with
    | module m =>
      apply ensures_bind
      apply ensures_ask
      refine performs_bind (resolves_lift at') ?_
      rintro h s' at' - ⟨rfl, found⟩
      exact performs_asCell at' fun R U _ => Ledger.moves_hold (Ledger.issued_resolveMember at'.closed found)
    | handle | value | cell | answer => exact ensures_throw at'
  | functionAt path auto =>
    exact performs_given .value (fun _ => rfl) (fun _ => rfl)
      (at'.given _ fun R U _ => Ledger.gives_functionAt path auto)
  | readField v name auto =>
    refine performs_withValue at' passes fun w s' at' held => ?_
    apply ensures_bind
    apply ensures_get
    exact performs_given .value (fun _ => rfl) (fun _ => rfl)
      (at'.given _ fun R U sound => Ledger.gives_readField s'.bridge w name auto sound)
  | toForeign v policy =>
    refine performs_withValue at' passes fun w s' at' held => ?_
    apply ensures_bind
    apply ensures_get
    exact performs_given .cell (fun _ => rfl) (fun _ => rfl)
      (at'.given _ fun R U sound => Ledger.gives_toForeign (policy.getD s'.bridge.policy) w sound held)
  | fromForeign h policy =>
    refine performs_withHandle at' passes fun k s' at' issued => ?_
    apply ensures_bind
    apply ensures_get
    exact performs_given .value (fun _ => rfl) (fun _ => rfl)
      (at'.given _ fun R U sound => Ledger.decodes_fromForeign (policy.getD s'.bridge.policy) sound issued)
  | newCell => exact performs_asCell at' fun R U _ => (Ledger.Move.newCell s.store _ R U).moves
  | bind name h => exact performs_bindCell name h at' passes
  | read name => exact performs_bind (resolves_lookup_cell name at') fun c s' at' _ _ => performs_asked at'
  | sameCell a b =>
    refine performs_bind (resolves_lookup_cell a at') fun c s' at' _ _ => ?_
    exact performs_bind (resolves_lookup_cell b at') fun d s' at' _ _ => performs_answer at'
  | value v =>
    refine performs_withValue at' passes fun w s' at' held => ?_
    exact performs_asValue at' fun R U _ =>
      Ledger.moves_retainAll w.references fun c hc => Multiset.mem_add.mpr (.inl (held c hc))
  | copy name => exact performs_copy name at'
  | drop name => exact ensures_bind (ensures_modify (performs_answer (at'.unassign name)))
  | describeValue v => exact performs_withValue at' passes fun w s' at' _ => performs_asked at'
  | sameValue a b =>
    refine performs_bind (resolves_value a at' fun h hh => passes h (List.mem_append_left _ hh)) ?_
    intro v s' at' grown _
    refine performs_withValue at' (fun h hh => grown.issued (passes h (List.mem_append_right _ hh))) ?_
    exact fun w s' at' _ => performs_asked at'
  | newRegistry =>
    have cleared := At.setRegistry (r := .empty) at' Registry.ascends_empty
    exact ensures_bind (ensures_modify (performs_answer cleared))
  | addFamily t => exact performs_addFamily t at'
  | instantiate text => exact performs_instantiate text at'
  | lookupType text =>
    refine performs_bind (resolves_lift at') fun t s' at' _ _ => ?_
    exact ensures_bind (ensures_get (performs_asked at'))
  | hostType h =>
    exact performs_withHandle at' passes fun k s' at' _ => ensures_bind (ensures_get (performs_answer at'))
  | typeOfValue v =>
    refine performs_withValue at' passes fun w s' at' _ => ?_
    apply ensures_bind
    apply ensures_get
    exact performs_bind (resolves_lift at') fun t s' at' _ _ => performs_answer at'
  | register input => exact performs_register input at'
  | bindDirectCalls inputs => exact performs_bindDirectCalls inputs at'
  | includeDirectCalls =>
    apply ensures_bind
    apply ensures_modify
    exact ensures_bind (ensures_get (performs_answer (at'.setBridge s.bridge _ s.guard)))

theorem requestMoments_quiet (s : Session) {st : Step} (quiet : st.isQuiet = true) : s.requestMoments st = [] := by
  cases st with
  | root | unroot | collect | storeCall | guardedCall | invoke | directCall => cases quiet
  | _ => rfl

/-- What follows an action leads along the moments that follow it. -/
theorem performs_followed {α : Type} {P : α → Session → Prop} {a : Action α} {f : α → Action Binding}
    {next : α → Session → List Moment} (first : Resolves L ms s P a) (passes : ∀ m ∈ a.followed next s, m.Passes)
    (second : ∀ x s', At L ms s' 0 → P x s' → (∀ m ∈ next x s', m.Passes) → Performs L (ms ++ next x s') s' (f x)) :
    Performs L (ms ++ a.followed next s) s (a >>= f) := by
  apply ensures_bind
  unfold Resolves Ensures at first
  unfold Ensures
  unfold followed at passes ⊢
  generalize a.run s = result at first passes ⊢
  obtain ⟨_ | x, s'⟩ := result
  · dsimp only
    rw [List.append_nil]
    exact first
  · exact second x s' first.1 first.2.2 passes

theorem performs_root (h : HandleInput) (at' : At L ms s 0) (named : ∀ k ∈ h.numbers, s.store.Issued k)
    (passes : ∀ m ∈ s.requestMoments (.root h), m.Passes) :
    Performs L (ms ++ s.requestMoments (.root h)) s (perform (.root h)) := by
  refine performs_followed (resolves_handle h at' named) passes fun k s' at' issued _ => ?_
  refine ensures_bind (ensures_onStore (performs_answer (at'.further [] fun R U _ => ?_)))
  rw [Multiset.coe_nil, zero_add]
  exact ⟨_, _, .one (m := ⟨s'.store, s'.holdings, .request (.root k)⟩) (Ledger.evolves_root issued)⟩

theorem performs_unroot (h : HandleInput) (at' : At L ms s 0) (named : ∀ k ∈ h.numbers, s.store.Issued k)
    (passes : ∀ m ∈ s.requestMoments (.unroot h), m.Passes) :
    Performs L (ms ++ s.requestMoments (.unroot h)) s (perform (.unroot h)) := by
  refine performs_followed (resolves_handle h at' named) passes fun k s' at' issued _ => ?_
  refine ensures_bind (ensures_onStore (performs_answer (at'.further [] fun R U _ => ?_)))
  rw [Multiset.coe_nil, zero_add]
  exact ⟨_, _, .one (m := ⟨s'.store, s'.holdings, .request (.unroot k)⟩) (Ledger.evolves_unroot issued)⟩

theorem performs_collect (at' : At L ms s 0) : Performs L (ms ++ s.requestMoments .collect) s (perform .collect) := by
  refine ensures_bind (ensures_onStore (performs_answer (at'.further [] fun R U _ => ?_)))
  rw [Multiset.coe_nil, zero_add]
  have still := Ledger.Along.still (m := ⟨s.store, s.holdings, .request .collect⟩) (r := R) (u := U) rfl rfl
  exact ⟨R, U, still.after Ledger.evolves_collect⟩

theorem resolves_callHandles (h : HandleInput) (args : List HandleInput) (at' : At L ms s 0)
    (named : ∀ k ∈ h.numbers ++ args.flatMap HandleInput.numbers, s.store.Issued k) :
    Resolves L ms s (fun x s' => s'.store.Issued x.1 ∧ ∀ k ∈ x.2, s'.store.Issued k) (callHandles h args) := by
  refine resolves_bind (resolves_handle h at' fun k hk => named k (List.mem_append_left _ hk)) ?_
  intro k s' at' grown issued
  refine resolves_bind (resolves_handles args at' fun k hk => grown.issued (named k (List.mem_append_right _ hk))) ?_
  exact fun ks s'' at'' grown' all => resolves_pure at'' ⟨grown'.issued issued, all⟩

/-- A call past the bridge leads along its moments, and gives a handle that was handed out. -/
theorem at_call {f : Handle} {args : List Handle} (at' : At L ms s 0) (issued : s.store.Issued f)
    (all : ∀ h ∈ args, s.store.Issued h) (passes : ∀ m ∈ Store.callMoments s.holdings f args s.store, m.Passes) :
    At L (ms ++ Store.callMoments s.holdings f args s.store) { s with store := (s.store.call f args).2 } 0 ∧
      (s.store.call f args).2.Issued (s.store.call f args).1 := by
  constructor
  · refine at'.further [] fun R U sound => ?_
    rw [Multiset.coe_nil, zero_add]
    exact (Ledger.along_call sound issued all passes).1
  · obtain ⟨R, U, sound⟩ := at'.sound
    unfold ledger at sound
    rw [zero_add] at sound
    exact (Ledger.along_call sound issued all passes).2

theorem performs_storeCall (h : HandleInput) (args : List HandleInput) (at' : At L ms s 0)
    (named : ∀ k ∈ h.numbers ++ args.flatMap HandleInput.numbers, s.store.Issued k)
    (passes : ∀ m ∈ s.requestMoments (.storeCall h args), m.Passes) :
    Performs L (ms ++ s.requestMoments (.storeCall h args)) s (perform (.storeCall h args)) := by
  refine performs_followed (resolves_callHandles h args at' named) passes ?_
  rintro ⟨k, ks⟩ s' at' ⟨issued, all⟩ passes
  obtain ⟨called, result⟩ := at_call at' issued all passes
  exact ensures_bind (ensures_onStore (performs_handle called result))

theorem performs_guardedCall (h : HandleInput) (args : List HandleInput) (at' : At L ms s 0)
    (named : ∀ k ∈ h.numbers ++ args.flatMap HandleInput.numbers, s.store.Issued k)
    (passes : ∀ m ∈ s.requestMoments (.guardedCall h args), m.Passes) :
    Performs L (ms ++ s.requestMoments (.guardedCall h args)) s (perform (.guardedCall h args)) := by
  refine performs_followed (resolves_callHandles h args at' named) passes ?_
  rintro ⟨k, ks⟩ s' at' ⟨issued, all⟩ passes
  obtain ⟨called, result⟩ := at_call at' issued all passes
  have checked := called.moved fun R U _ => Ledger.moves_takeFault
  rw [← Ledger.crossing_snd] at checked
  apply ensures_bind
  apply ensures_tryStore
  · exact fun _ _ => checked
  · intro h ok
    exact performs_handle checked (Ledger.issued_crossing result (Prod.ext ok rfl))

theorem holdings_of_kept {vs : List (Value CellId)} (kept : ∀ v ∈ vs, Kept v s) :
    ∀ c ∈ Value.referencesItems vs, c ∈ s.holdings := by
  intro c hc
  obtain ⟨v, hv, hc⟩ := Value.mem_referencesItems hc
  exact mem_holdings (kept v hv c hc)

theorem resolves_callInputs (f : ValueInput) (args : List ValueInput) (at' : At L ms s 0)
    (named : ∀ k ∈ valueNumbers f ++ args.flatMap valueNumbers, s.store.Issued k) :
    Resolves L ms s (fun x s' => ∀ c ∈ Value.referencesItems x.2, c ∈ s'.holdings) (callInputs f args) := by
  have found : Resolves L ms s (fun _ _ => True) (callable f) := by
    refine resolves_bind (resolves_value f at' fun k hk => named k (List.mem_append_left _ hk)) fun v s' at' _ _ => ?_
    cases v with
    | function c auto => exact resolves_pure at' trivial
    | nil | bool | int | float | str | symbol | list | record | foreign => exact resolves_throw at'
  refine resolves_bind found fun callable s' at' grown _ => ?_
  refine resolves_bind (resolves_values args at' fun k hk => grown.issued (named k (List.mem_append_right _ hk))) ?_
  exact fun vs s'' at'' _ kept => resolves_pure at'' (holdings_of_kept kept)

theorem performs_invoke (f : ValueInput) (args : List ValueInput) (at' : At L ms s 0)
    (named : ∀ k ∈ valueNumbers f ++ args.flatMap valueNumbers, s.store.Issued k)
    (passes : ∀ m ∈ s.requestMoments (.invoke f args), m.Passes) :
    Performs L (ms ++ s.requestMoments (.invoke f args)) s (perform (.invoke f args)) := by
  refine performs_followed (resolves_callInputs f args at' named) passes ?_
  rintro ⟨callable, vs⟩ s' at' held passes
  apply ensures_bind
  apply ensures_get
  exact performs_given .value (fun _ => rfl) (fun _ => rfl)
    (at'.further _ fun R U sound => Ledger.along_invoke s'.bridge callable vs sound held passes)

theorem performs_directCall (name : String) (args : List ValueInput) (at' : At L ms s 0)
    (named : ∀ k ∈ args.flatMap valueNumbers, s.store.Issued k)
    (passes : ∀ m ∈ s.requestMoments (.directCall name args), m.Passes) :
    Performs L (ms ++ s.requestMoments (.directCall name args)) s (perform (.directCall name args)) := by
  refine performs_followed (resolves_values args at' named) passes ?_
  intro vs s' at' kept passes
  apply ensures_bind
  apply ensures_get
  exact performs_given .value (fun _ => rfl) (fun _ => rfl) (at'.further _ fun R U sound =>
    Ledger.along_directCall s'.calls name s'.bridge s'.registry vs sound (holdings_of_kept kept) passes)

/-- **Every step leads along its moments.** -/
theorem performs_step (st : Step) (at' : At L ms s 0) (named : ∀ h ∈ st.numbers, s.store.Issued h)
    (passes : ∀ m ∈ s.requestMoments st, m.Passes) : Performs L (ms ++ s.requestMoments st) s (perform st) := by
  by_cases quiet : st.isQuiet = true
  · rw [requestMoments_quiet s quiet, List.append_nil]
    exact performs_quiet st quiet at' named
  · cases st with
    | root h => exact performs_root h at' named passes
    | unroot h => exact performs_unroot h at' named passes
    | collect => exact performs_collect at'
    | storeCall h args => exact performs_storeCall h args at' named passes
    | guardedCall h args => exact performs_guardedCall h args at' named passes
    | invoke f args => exact performs_invoke f args at' named passes
    | directCall name args => exact performs_directCall name args at' named passes
    | _ => exact absurd rfl quiet

end Action

/-! ### Scripts -/

section scripts

variable {L : Ledger} {ms : List Moment} {s : Session}

/-- **A step leads the ledger of its session along its moments.** -/
theorem at_step (st : Step) (target : Option String) (at' : At L ms s 0) (passes : ∀ m ∈ s.moments st, m.Passes) :
    At L (ms ++ s.moments st) (s.step st target).2 0 := by
  have entered : At L (ms ++ [⟨s.store, s.holdings, .inputs st.numbers⟩]) s 0 := by
    refine at'.further [] (t := s.store) fun R U _ => ?_
    rw [Multiset.coe_nil, zero_add]
    exact ⟨R, U, .still (m := ⟨s.store, s.holdings, .inputs st.numbers⟩) rfl rfl⟩
  have performed := Action.performs_step st entered (passes _ List.mem_cons_self) fun m hm =>
    passes m (List.mem_cons_of_mem _ hm)
  rw [List.append_assoc, List.singleton_append] at performed
  obtain ⟨e, s', failed, ended⟩ | ⟨b, s', ok, ended⟩ := s.step_cases st target
  · rw [ended]
    exact (performed.of_error failed).endStep
  · rw [ended]
    obtain ⟨after, known⟩ := performed.of_ok ok
    cases target with
    | none =>
      apply At.endStep
      apply At.keep
      rwa [add_zero]
    | some name => exact (after.assign name known).endStep

/-- The moments of a script. -/
def history (s : Session) : Script → List Moment
  | [] => []
  | (st, target) :: script => s.moments st ++ history (s.step st target).2 script

/-- **A script leads the ledger of its session along its moments.** -/
theorem at_run (script : Script) : ∀ {ms : List Moment} {s : Session}, At L ms s 0 →
    (∀ m ∈ s.history script, m.Passes) → At L (ms ++ s.history script) (s.run script) 0 := by
  induction script with
  | nil =>
    intro ms s at' _
    rw [history, List.append_nil]
    exact at'
  | cons head script ih =>
    intro ms s at' passes
    obtain ⟨st, target⟩ := head
    have first := at_step st target at' fun m hm => passes m (List.mem_append_left _ hm)
    have rest := ih first fun m hm => passes m (List.mem_append_right _ hm)
    rw [List.append_assoc] at rest
    exact rest

end scripts

end Session

end ForeignBridge
