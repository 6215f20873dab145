import ForeignBridge.Proofs.SteadySteps

/-! # Runs that leave no fault behind

An operation of the bridge, of the registry or of the direct calls that begins without a pending fault ends without
one, whatever happens in it and however it ends. So no fault is carried over to a later one
(`faults_stay_in_their_crossing`). But it ends only if the description of the exception does, and a function can raise
an exception whose description never ends (`endless_exceptions_keep_calls`). -/

namespace ForeignBridge

/-! ### Registration -/

namespace Registration

theorem fault_tryFamily (t : Template) (p : Progress) : (tryFamily t p).store.fault = p.store.fault := by
  have added := Registry.fault_addFamily t p.registry p.store
  unfold tryFamily
  generalize p.registry.addFamily t p.store = result at added ⊢
  obtain ⟨_ | _, r, s⟩ := result <;> exact added

theorem fault_registerFamilies (templates : List Template) (order : List String) : ∀ p : Progress,
    (registerFamilies templates order p).store.fault = p.store.fault := by
  induction order with
  | nil => exact fun p => rfl
  | cons name order ih =>
    intro p
    refine (ih _).trans ?_
    dsimp only
    split
    · exact fault_tryFamily _ p
    · rfl

theorem fault_tryInstance (i : Pending) {p : Progress} (clean : p.store.fault = none) :
    (tryInstance p i).store.fault = none := by
  unfold tryInstance
  split
  · split <;> exact clean
  · have made := Registry.fault_instantiate i.type p.registry clean
    generalize p.registry.instantiate i.type p.store = result at made ⊢
    obtain ⟨_ | h, r, s⟩ := result <;> exact made

theorem fault_registerAll (templates : List Template) (settings : RegistrationSettings) {s : Store}
    (clean : s.fault = none) : (registerAll templates settings s).store.fault = none := by
  have all : ∀ (is : List Pending) {p : Progress}, p.store.fault = none →
      (is.foldl tryInstance p).store.fault = none := by
    intro is
    induction is with
    | nil => exact fun clean => clean
    | cons i is ih => exact fun clean => ih (fault_tryInstance i clean)
  exact all _ ((fault_registerFamilies _ _ _).trans clean)

end Registration

theorem Bridge.fault_register (b : Bridge) (settings : RegistrationSettings) {s : Store} (clean : s.fault = none) :
    (b.register settings s).2.fault = none := by
  unfold Bridge.register
  split
  · exact clean
  · exact Registration.fault_registerAll _ settings clean

namespace Session

namespace Action

open Store

variable {α : Type}

/-- No fault is pending. -/
def Clean (s : Session) : Prop := s.store.fault = none

theorem clean_of_steady {a : Action α} (steady : ∀ s, Keeps (Steady s) a) : Keeps Clean a := by
  intro s clean
  exact (steady s s (.refl s)).imp (fun _ after => after.fault clean) fun _ _ after => after.fault clean

theorem clean_register (input : SettingsInput) : Keeps Clean (register input) := by
  refine keeps_bind (keeps_settings input) fun settings s clean => ?_
  apply ensures_bind
  apply ensures_get
  apply ensures_bind
  apply ensures_set
  have later : Clean { s with store := (s.bridge.register settings s.store).2 } :=
    s.bridge.fault_register settings clean
  refine keeps_bind (keeps_lift _ _) (fun done => ?_) _ later
  refine keeps_bind (clean_of_steady fun _ => steady_setRegistry _) fun _ => ?_
  refine keeps_bind (keeps_modify fun _ clean => clean) fun _ => ?_
  split
  · exact keeps_bind (clean_of_steady fun _ => steady_setDirectCalls _) fun _ => keeps_pure _
  · exact keeps_pure _

/-! ### Steps -/

theorem clean_perform (st : Step) (guarded : st.isGuarded = true) : Keeps Clean (perform st) := by
  cases kind : st.isRegistration with
  | false => exact clean_of_steady fun s => steady_perform st guarded kind
  | true =>
    cases st with
    | begin =>
      refine keeps_bind keeps_get fun s => keeps_bind (keeps_lift _ _) fun bridge => ?_
      exact keeps_bind (keeps_modify fun _ clean => clean) fun _ => keeps_pure _
    | complete | abandon =>
      refine keeps_bind (keeps_modify fun s clean => ?_) fun _ => keeps_pure _
      unfold endGuard
      split <;> exact clean
    | register input => exact keeps_map _ (clean_register input)
    | _ => cases kind

end Action

/-! ### Runs -/

open Store

variable {s : Session}

theorem clean_step (st : Step) (target : Option String) (guarded : st.isGuarded = true) (clean : s.store.fault = none) :
    (s.step st target).2.store.fault = none := by
  have performed := Action.clean_perform st guarded s clean
  obtain ⟨e, s', failed, ended⟩ | ⟨b, s', ok, ended⟩ := s.step_cases st target
  · rw [ended]
    exact (fault_releaseAll _ _).trans (performed.of_error failed)
  · rw [ended]
    refine (fault_releaseAll _ _).trans ?_
    have after : s'.store.fault = none := performed.of_ok ok
    cases target with
    | none => exact after
    | some name => exact (fault_releaseAll _ _).trans after

theorem clean_run (script : Script) : ∀ {s : Session}, (∀ e ∈ script, e.1.isGuarded = true) → s.store.fault = none →
    (s.run script).store.fault = none := by
  induction script with
  | nil => exact fun _ clean => clean
  | cons e script ih =>
    intro s guarded clean
    have first := clean_step e.1 e.2 (guarded e List.mem_cons_self) clean
    exact ih (fun e' he' => guarded e' (List.mem_cons_of_mem _ he')) first

/-- **A fault stays in its crossing.** A call on an open bridge whose arguments are converted comes to an end if the
function does and the exception that is pending then has a description that ends (`Checked`). It reports this fault, and
nothing else, and leaves none pending; the call log goes on with the check, and with describing and clearing the fault
or else with looking at slots. So do a direct call, the reading of a field, and the registration of a type, if it crosses
at all. Before each step of a run over these operations no fault is pending, so none is carried over to a later step or
reported by it. -/
theorem faults_stay_in_their_crossing :
    (∀ (b : Bridge) (f : Callable) args s held t, b.phase = .ready →
      Bridge.convertArguments (b.argumentPolicy f.autoConvert) args s = (.ok held, t) →
      t.fault = s.fault ∧ Checked (t.call (t.read f.cell) (held.map t.read)).2
        (reported BridgeError.fault? (b.invoke f args s).1) (b.invoke f args s).2) ∧
    (∀ (b : Bridge) v name autoConvert s c, v.reference? = some c → Checked (s.readField (s.read c) name).2
      (reported BridgeError.fault? (b.readField v name autoConvert s).1) (b.readField v name autoConvert s).2) ∧
    (∀ (r : Registry) t s,
      (reported RegistrationError.fault? (r.instantiate t s).1 = none ∧ (r.instantiate t s).2.2 = s) ∨
      ∃ family params, r.families.get? t.name = some family ∧ r.parameters s t t.params = .ok params ∧
        Checked (s.applyFamily (s.read family.constructor) params).2
          (reported RegistrationError.fault? (r.instantiate t s).1) (r.instantiate t s).2.2) ∧
    (∀ (call : DirectCall) b r args s held t, b.phase = .ready → call.accepts r s args = .ok () →
      Bridge.convertArguments (b.argumentPolicy call.function.autoConvert) args s = (.ok held, t) →
      Checked (t.call (t.read call.function.cell) (held.map t.read)).2
        (reported RegistrationError.fault? (call.invoke b r args s).1) (call.invoke b r args s).2) ∧
    (∀ (s : Session) before st target after, s.store.fault = none →
      (∀ e ∈ before ++ (st, target) :: after, e.1.isGuarded = true) →
      (s.run before).store.fault = none ∧ ((s.run before).step st target).2.store.fault = none) := by
  refine ⟨?_, ?_, ?_, ?_, ?_⟩
  · intro b f args s held t ready converted
    refine ⟨?_, b.checked_invoke f args ready converted⟩
    have kept := ConversionPolicy.fault_toForeignItems (b.argumentPolicy f.autoConvert) args s
    unfold Bridge.convertArguments at converted
    rwa [converted] at kept
  · exact fun b v name autoConvert s c there => b.checked_readField there name autoConvert s
  · exact fun r t s => r.idle_or_checked_instantiate t s
  · exact fun call b r args s held t ready accepted converted => call.checked_invoke b r args ready accepted converted
  · intro s before st target after clean guarded
    have reached := clean_run before (fun e he => guarded e (List.mem_append_left _ he)) clean
    exact ⟨reached, clean_step st target (guarded _ (List.mem_append_right _ List.mem_cons_self)) reached⟩

/-- A store with a function, and a cell that holds it. -/
def withFunction (body : List Handle → Program) : CellId × Store :=
  let (f, s) := (Store.ofVersion ⟨1, 0, 0, [], []⟩).defineFunction "" "f" [] body
  s.hold f

/-- A function that fails is reported by the message that it fails with, and the call comes to its end. -/
theorem faults_stay_in_their_crossing_failing :
    let start := withFunction fun _ => .fail "boom"
    ∃ outcome after, (⟨.full, .ready⟩ : Bridge).invoke ⟨start.1, false⟩ [.int 1] start.2 = (outcome, after) ∧
      reported BridgeError.fault? outcome = some "boom" ∧ after.halted = false ∧ after.fault = none := by
  intro start
  obtain ⟨t, converted, pending, going, described⟩ : ∃ t,
      Bridge.convertArguments ((⟨.full, .ready⟩ : Bridge).argumentPolicy false) [.int 1] start.2 = (.ok [⟨1⟩], t) ∧
      (t.call (t.read start.1) ([⟨1⟩].map t.read)).2.fault = some ⟨4⟩ ∧
      (t.call (t.read start.1) ([⟨1⟩].map t.read)).2.halted = false ∧
      (t.call (t.read start.1) ([⟨1⟩].map t.read)).2.description ⟨4⟩ = some (some "boom") :=
    ⟨_, Prod.ext (by decide +kernel) rfl, by decide +kernel, by decide +kernel, by decide +kernel⟩
  obtain ⟨_, checked⟩ := faults_stay_in_their_crossing.1 ⟨.full, .ready⟩ ⟨start.1, false⟩ _ _ _ _ rfl converted
  have taken := TakesFault.faulted pending (describes_iff.mpr described)
  exact ⟨_, _, Prod.mk.eta.symm, (checked.settled taken).reported pending (describes_iff.mpr described),
    checked.ends.mpr ⟨going, _, taken⟩, checked.cleared⟩

/-- **A call can fail to end though its function does**: the function raises an array that is to be its own item, and
returns. No description of the exception ends, so neither does the check. -/
theorem endless_exceptions_keep_calls :
    let start := withFunction fun _ => .ask (.raise (.array [⟨3⟩])) fun _ => .done Store.mainModule
    let returned := start.2.call (start.2.read start.1) []
    start.2.fault = none ∧ start.2.halted = false ∧ returned.1 = Store.mainModule ∧ returned.2.halted = false ∧
      returned.2.fault = some ⟨3⟩ ∧ (∀ text, ¬ returned.2.Describes ⟨3⟩ text) ∧
      ((⟨.full, .ready⟩ : Bridge).invoke ⟨start.1, false⟩ [] start.2).2.halted = true := by
  intro start returned
  have endless : ∀ text, ¬ returned.2.Describes ⟨3⟩ text := fun text described => by
    have none : returned.2.description ⟨3⟩ = none := by decide +kernel
    rw [describes_iff.mp described] at none
    cases none
  exact ⟨by decide +kernel, by decide +kernel, by decide +kernel, by decide +kernel, by decide +kernel, endless,
    by decide +kernel⟩

end Session

end ForeignBridge
