import ForeignBridge.Proofs.RootCounts
import ForeignBridge.Proofs.SteadySteps

/-! # Registration runs once

A bridge is registered at most once, and stays open from then on (`registers_once`). What a run shows of its
registration is the `Tally`: the guards that were given out and not given back, and the registrations that were
completed. It is kept from the outside, by the steps and by whether they succeed, and the phase of the bridge always
agrees with it (`Phased`).

Only four steps touch the phase (`standing_perform`). The others may run programs, convert values and call functions, but
none of them is given the bridge to change. -/

namespace ForeignBridge

/-! ### Guards -/

theorem Bridge.of_begin {b : Bridge} {begun : InitGuard × Bridge} (began : b.begin = .ok begun) :
    b.phase = .uninitialized ∧ (⟨false⟩, { b with phase := .registering }) = begun := by
  unfold Bridge.begin at began
  split at began
  · cases began
  · cases began
  · next fresh => exact ⟨fresh, Except.ok.inj began⟩

namespace InitGuard

variable {guard : InitGuard}

/-- A guard that was completed leaves its bridge alone when it is dropped. -/
theorem drop_of_completed (completed : guard.completed = true) (b : Bridge) : guard.drop b = b := if_pos completed

/-- Any other one gives the registration up. -/
theorem drop_of_open (free : guard.completed = false) (b : Bridge) :
    guard.drop b = { b with phase := .uninitialized } := by
  rw [drop, free]
  rfl

/-- The flag keeps the bridge open when the guard that was completed goes. -/
theorem complete_eq (guard : InitGuard) (b : Bridge) : guard.complete b = { b with phase := .ready } :=
  drop_of_completed rfl _

end InitGuard

/-! ### Calls on a bridge that is not ready -/

theorem Bridge.invoke_of_shut {b : Bridge} (shut : b.phase ≠ .ready) (f : Callable) (args : List (Value CellId))
    (s : Store) : b.invoke f args s = (.error .notInitialized, s) := by
  have closed : (!b.isReady) = true := by simpa [Bridge.isReady] using shut
  rw [Bridge.invoke, Bridge.enter, if_pos closed]

/-- A direct call that would get as far as the bridge is refused by it. -/
theorem DirectCalls.invoke_of_shut {b : Bridge} (shut : b.phase ≠ .ready) (calls : DirectCalls) (name : String)
    (r : Registry) (args : List (Value CellId)) (s : Store) :
    ∃ e, calls.invoke name b r args s = (.error e, s) ∧
      ∀ c, calls.calls.get? name = some c → c.accepts r s args = .ok () → e = .bridge .notInitialized := by
  unfold DirectCalls.invoke
  cases calls.calls.get? name with
  | none => exact ⟨_, rfl, fun _ found => by cases found⟩
  | some call =>
    have closed := Bridge.invoke_of_shut shut call.function args s
    have ends := call.ends_invoke b r args s
    dsimp only
    generalize call.invoke b r args s = result at ends ⊢
    cases ends with
    | @refused e refused =>
      refine ⟨e, rfl, fun c found ok => ?_⟩
      rw [← Option.some.inj found, refused] at ok
      cases ok
    | failed _ ended =>
      cases closed.symm.trans ended
      exact ⟨_, rfl, fun _ _ _ => rfl⟩
    | returned _ ended | misfit _ ended => cases closed.symm.trans ended

namespace Session

/-! ### Steps that leave the bridge alone -/

namespace Action

variable {b : Bridge} {guard : Option InitGuard} {s : Session}

/-- The session has this bridge, and this guard or none. -/
def Standing (b : Bridge) (guard : Option InitGuard) (s : Session) : Prop := s.bridge = b ∧ s.guard = guard

theorem lasting_standing : Lasting (Standing b guard) where
  hold _ standing := standing
  retain _ standing := standing
  temporaries _ standing := standing

theorem standing_finished (f : Store → Store) : Keeps (Standing b guard) (finished f) :=
  keeps_bind (keeps_onStore fun _ standing => standing) fun _ => keeps_pure _

theorem standing_asHandle (f : Store → Handle × Store) : Keeps (Standing b guard) (asHandle f) :=
  keeps_map _ (keeps_onStore fun _ standing => standing)

theorem standing_setDirectCalls {E : Session → Prop} (specs : List DirectCallSpec) (standing : Standing b guard s) :
    Ensures (setDirectCalls specs) s E fun _ => Standing b guard := by
  apply ensures_bind
  apply ensures_get
  apply ensures_set
  exact standing

/-- **A step that neither begins nor ends registration leaves the bridge alone.** -/
theorem standing_perform (st : Step) (other : st.isRegistration = false) : Keeps (Standing b guard) (perform st) := by
  cases crossing : st.isGuarded with
  | true =>
    rintro s ⟨rfl, rfl⟩
    refine (steady_perform st crossing other s (.refl s)).imp ?_ ?_
    · exact fun _ steady => ⟨steady.bridge, steady.guard⟩
    · exact fun _ _ steady => ⟨steady.bridge, steady.guard⟩
  | false =>
    -- the steps that may leave a fault are not given the bridge either
    cases st with
    | raise => exact standing_finished _
    | raiseValue data => exact keeps_bind (keeps_datum lasting_standing data) fun _ => standing_finished _
    | storeField h => exact keeps_bind (keeps_handle h) fun _ => standing_asHandle _
    | storeCall h args => exact keeps_bind (keeps_callHandles h args) fun _ => standing_asHandle _
    | applyFamily h params =>
      refine keeps_bind (keeps_handle h) fun _ => ?_
      exact keeps_bind (keeps_mapM keeps_handle params) fun _ => standing_asHandle _
    | _ => cases crossing

/-! ### Steps of registration -/

/-- Beginning fails where registration runs or is complete, and then changes nothing. -/
theorem ensures_begin : Ensures (perform .begin) s (· = s) fun _ s' =>
    s.bridge.phase = .uninitialized ∧ Standing { s.bridge with phase := .registering } (some ⟨false⟩) s' := by
  apply ensures_bind
  apply ensures_get
  apply ensures_bind
  refine ensures_lift rfl fun begun began => ?_
  obtain ⟨fresh, rfl⟩ := Bridge.of_begin began
  exact ensures_bind (ensures_modify (ensures_pure ⟨fresh, rfl, rfl⟩))

/-- **A registration that fails changes nothing.** One that succeeds found the bridge unregistered, and opens it. -/
theorem ensures_register (input : SettingsInput) : Ensures (perform (.register input)) s (· = s) fun _ s' =>
    s.bridge.phase = .uninitialized ∧ Standing { s.bridge with phase := .ready } s.guard s' := by
  apply ensures_bind
  apply ensures_bind
  refine (keeps_settings (I := (· = s)) input s rfl).imp (fun _ same => same) ?_
  rintro settings t rfl
  apply ensures_bind
  apply ensures_get
  unfold Bridge.register
  cases began : t.bridge.begin with
  | error e => exact rfl
  | ok begun =>
    obtain ⟨fresh, rfl⟩ := Bridge.of_begin began
    -- what is left to do cannot fail: the registry and the direct calls are put in place
    apply ensures_bind
    apply ensures_set
    apply ensures_bind
    apply ensures_pure
    apply ensures_bind
    apply ensures_modify
    apply ensures_bind
    apply ensures_modify
    have opened (store : Store) (registry : Registry) (report : Report) :
        Standing { t.bridge with phase := .ready } t.guard
          { t with store, registry, report, bridge := { t.bridge with phase := .ready } } := ⟨rfl, rfl⟩
    split
    · apply ensures_bind
      refine (standing_setDirectCalls settings.directCalls (opened _ _ _)).imp (fun _ h => h) fun _ s' standing => ?_
      exact ensures_pure (ensures_pure ⟨fresh, standing⟩)
    · exact ensures_pure (ensures_pure ⟨fresh, opened _ _ _⟩)

theorem run_complete (s : Session) :
    (perform .complete).run s = (.ok (.answer .done), s.endGuard InitGuard.complete) := rfl

theorem run_abandon (s : Session) :
    (perform .abandon).run s = (.ok (.answer .done), s.endGuard InitGuard.drop) := rfl

end Action

/-! ### What a run shows of its registration -/

/-- The guards that are outstanding, and the registrations that were completed. -/
structure Tally where
  guards : ℕ
  completions : ℕ
deriving DecidableEq

/-- The tally after a step. A guard that is not there is neither completed nor given up. -/
def Tally.after (st : Step) (succeeded : Bool) (t : Tally) : Tally :=
  match st, t with
  | .begin, ⟨guards, completions⟩ => if succeeded then ⟨guards + 1, completions⟩ else t
  | .complete, ⟨guards + 1, completions⟩ => ⟨guards, completions + 1⟩
  | .abandon, ⟨guards + 1, completions⟩ => ⟨guards, completions⟩
  | .register _, ⟨guards, completions⟩ => if succeeded then ⟨guards, completions + 1⟩ else t
  | _, t => t

/-- The tally after the steps of a script, which starts in a session. -/
def tally : Script → Session → Tally → Tally
  | [], _, t => t
  | (st, target) :: rest, s, t => tally rest (s.step st target).2 (t.after st (s.step st target).1.isOk)

theorem Tally.after_of_other {st : Step} (other : st.isRegistration = false) (succeeded : Bool) (t : Tally) :
    t.after st succeeded = t := by
  cases st with
  | begin | complete | abandon | register => cases other
  | _ => rfl

theorem Tally.completions_le_after (st : Step) (succeeded : Bool) (t : Tally) :
    t.completions ≤ (t.after st succeeded).completions := by
  unfold Tally.after
  split
  · split <;> exact le_rfl
  · exact Nat.le_succ _
  · exact le_rfl
  · split
    · exact Nat.le_succ _
    · exact le_rfl
  · exact le_rfl

theorem completions_le_tally : ∀ (script : Script) (s : Session) (t : Tally),
    t.completions ≤ (tally script s t).completions
  | [], _, _ => le_rfl
  | (st, target) :: rest, s, t =>
    (t.completions_le_after st (s.step st target).1.isOk).trans (completions_le_tally rest _ _)

/-- The tally of a bridge in a phase: one guard while it is registering, one completed registration once it is ready. -/
def Tally.ofPhase : Phase → Tally
  | .uninitialized => ⟨0, 0⟩
  | .registering => ⟨1, 0⟩
  | .ready => ⟨0, 1⟩

/-- The guard that is outstanding in a phase. It is not completed before it ends. -/
def guardOf : Phase → Option InitGuard
  | .registering => some ⟨false⟩
  | _ => none

/-- The phase of a bridge agrees with the guard that the session holds, and with a tally. -/
structure Phased (b : Bridge) (guard : Option InitGuard) (t : Tally) : Prop where
  guarded : guard = guardOf b.phase
  counted : t = .ofPhase b.phase

theorem Phased.of_standing {b : Bridge} {guard : Option InitGuard} {t : Tally} {s : Session} (phased : Phased b guard t)
    (standing : Action.Standing b guard s) : Phased s.bridge s.guard t := by
  obtain ⟨rfl, rfl⟩ := standing
  exact phased

variable {s : Session} {t : Tally}

theorem endGuard_of_some {guard : InitGuard} (there : s.guard = some guard) (ending : InitGuard → Bridge → Bridge) :
    s.endGuard ending = { s with bridge := ending guard s.bridge, guard := none } := by
  rw [endGuard, there]

theorem endGuard_of_none (gone : s.guard = none) (ending : InitGuard → Bridge → Bridge) : s.endGuard ending = s := by
  rw [endGuard, gone]

/-- The end of a guard leads on from registering, to where the tally says, and from elsewhere nowhere. -/
theorem Phased.endGuard {ending : InitGuard → Bridge → Bridge} (next : Phase) {after : Tally}
    (phased : Phased s.bridge s.guard t) (leads : ∀ b, ending ⟨false⟩ b = { b with phase := next })
    (unguarded : guardOf next = none) (left : s.bridge.phase = .registering → after = .ofPhase next)
    (stays : s.bridge.phase ≠ .registering → after = t) :
    Phased (s.endGuard ending).bridge (s.endGuard ending).guard after := by
  obtain ⟨guarded, counted⟩ := phased
  cases phase : s.bridge.phase with
  | registering =>
    rw [endGuard_of_some (guarded.trans (congrArg guardOf phase)) ending, left phase, leads]
    exact ⟨unguarded.symm, rfl⟩
  | uninitialized | ready =>
    rw [endGuard_of_none (guarded.trans (congrArg guardOf phase)) ending, stays (by rw [phase]; decide)]
    exact ⟨guarded, counted⟩

/-- **The phase agrees with the tally after whatever a step does.** -/
theorem Phased.perform (phased : Phased s.bridge s.guard t) (st : Step) :
    Action.Ensures (Action.perform st) s (fun s' => Phased s'.bridge s'.guard (t.after st false))
      fun _ s' => Phased s'.bridge s'.guard (t.after st true) := by
  cases kind : st.isRegistration with
  | false =>
    simp only [t.after_of_other kind]
    exact (Action.standing_perform st kind s ⟨rfl, rfl⟩).imp (fun _ => phased.of_standing) fun _ _ => phased.of_standing
  | true =>
    have same (unchanged : t.after st false = t) (s' : Session) (eq : s' = s) :
        Phased s'.bridge s'.guard (t.after st false) := by rwa [unchanged, eq]
    have counted := phased.counted
    cases st with
    | begin =>
      refine Action.ensures_begin.imp (same rfl) fun _ s' ⟨fresh, standing⟩ => ?_
      rw [counted, fresh]
      exact Phased.of_standing ⟨rfl, rfl⟩ standing
    | register input =>
      refine (Action.ensures_register input).imp (same rfl) fun _ s' ⟨fresh, standing⟩ => ?_
      rw [phased.guarded, fresh] at standing
      rw [counted, fresh]
      exact Phased.of_standing ⟨rfl, rfl⟩ standing
    | complete =>
      unfold Action.Ensures
      rw [Action.run_complete]
      refine phased.endGuard .ready (fun b => InitGuard.complete_eq _ b) rfl ?_ ?_
      · exact fun registering => by rw [counted, registering]; rfl
      · intro other
        rw [counted]
        cases phase : s.bridge.phase with
        | registering => exact absurd phase other
        | uninitialized | ready => rfl
    | abandon =>
      unfold Action.Ensures
      rw [Action.run_abandon]
      refine phased.endGuard .uninitialized (fun b => InitGuard.drop_of_open rfl b) rfl ?_ ?_
      · exact fun registering => by rw [counted, registering]; rfl
      · intro other
        rw [counted]
        cases phase : s.bridge.phase with
        | registering => exact absurd phase other
        | uninitialized | ready => rfl
    | _ => cases kind

theorem Phased.step (phased : Phased s.bridge s.guard t) (st : Step) (target : Option String) :
    Phased (s.step st target).2.bridge (s.step st target).2.guard
      (t.after st (s.step st target).1.isOk) := by
  have ran := phased.perform st
  obtain ⟨e, s', failed, ended⟩ | ⟨b, s', ok, ended⟩ := s.step_cases st target
  · have after := ran.of_error failed
    rw [ended]
    exact after
  · have after := ran.of_ok ok
    rw [ended]
    cases target <;> exact after

theorem Phased.run : ∀ (script : Script) {s : Session} {t : Tally}, Phased s.bridge s.guard t →
    Phased (s.run script).bridge (s.run script).guard (tally script s t)
  | [], _, _, phased => phased
  | (st, target) :: rest, _, _, phased => Phased.run rest (phased.step st target)

theorem phased_start (version : Version) (families : List String) (policy : ConversionPolicy) (stack : ℕ) :
    Phased (start version families policy stack).bridge (start version families policy stack).guard ⟨0, 0⟩ :=
  ⟨rfl, rfl⟩

/-- A ready bridge stays ready: no registration is uncounted. -/
theorem Phased.run_ready (phased : Phased s.bridge s.guard t) (ready : s.bridge.phase = .ready)
    (script : Script) : (s.run script).bridge.phase = .ready := by
  have later := completions_le_tally script s t
  rw [(phased.run script).counted, phased.counted, ready] at later
  cases phase : (s.run script).bridge.phase with
  | ready => rfl
  | uninitialized | registering =>
    rw [phase] at later
    exact absurd later (by decide)

/-! ### What fails changes nothing -/

/-- A step that fails and leaves the session as it is, leaves it so when it ends. -/
theorem step_of_unchanged {st : Step} {Q : Binding → Session → Prop} {target : Option String} {e : StepError}
    {s' : Session} (ran : Action.Ensures (Action.perform st) s (· = s) Q) (none : s.temporaries = [])
    (failed : s.step st target = (.error e, s')) : s' = s := by
  obtain ⟨e', u, stopped, ended⟩ | ⟨b, u, ok, ended⟩ := s.step_cases st target
  · obtain rfl : u = s := ran.of_error stopped
    rw [ended] at failed
    obtain ⟨store, bridge, registry, calls, report, bindings, running, temporaries⟩ := u
    obtain rfl : temporaries = [] := none
    exact (Prod.mk.inj failed).2.symm
  · rw [ended] at failed
    cases (Prod.mk.inj failed).1

/-- A call on a bridge that is not ready is over when its inputs are resolved. -/
theorem run_invoke_of_shut {f : ValueInput} {args : List ValueInput} {found : Callable × List (Value CellId)}
    {s' : Session} (shut : s'.bridge.phase ≠ .ready) (resolved : (Action.callInputs f args).run s = (.ok found, s')) :
    (Action.perform (.invoke f args)).run s = (.error (.bridge .notInitialized), s') := by
  unfold Action.perform
  rw [Action.run_bind, resolved]
  have refused := Bridge.invoke_of_shut shut found.1 found.2 s'.store
  show (Action.tryStore .bridge (s'.bridge.invoke found.1 found.2) >>= _).run s' = _
  rw [Action.run_bind, Action.run_tryStore_error (congrArg Prod.fst refused), refused]

theorem run_directCall_of_shut {name : String} {args : List ValueInput} {found : List (Value CellId)} {s' : Session}
    (shut : s'.bridge.phase ≠ .ready) (resolved : (args.mapM Action.value).run s = (.ok found, s')) :
    ∃ e, (Action.perform (.directCall name args)).run s = (.error (.registration e), s') := by
  obtain ⟨e, refused, -⟩ := DirectCalls.invoke_of_shut shut s'.calls name s'.registry found s'.store
  refine ⟨e, ?_⟩
  unfold Action.perform
  rw [Action.run_bind, resolved]
  show (Action.tryStore .registration (s'.calls.invoke name s'.bridge s'.registry found) >>= _).run s' = _
  rw [Action.run_bind, Action.run_tryStore_error (congrArg Prod.fst refused), refused]

/-! ### Whole runs -/

/-- **Registration runs once.** After every script, the bridge is registering exactly while a guard is outstanding, and
there is at most one; it is ready exactly if a registration was completed, and at most one ever is; and once it is ready
it stays so. While it is not ready, calls and direct calls are refused and leave the store as it is. A registration that
does not begin changes nothing. -/
theorem registers_once (version : Version) (families : List String) (policy : ConversionPolicy) (stack : ℕ)
    (script : Script) :
    let s := (start version families policy stack).run script
    let t := tally script (start version families policy stack) ⟨0, 0⟩
    ((s.bridge.phase = .registering ↔ t.guards = 1) ∧ t.guards ≤ 1) ∧
    ((s.bridge.phase = .ready ↔ t.completions = 1) ∧ t.completions ≤ 1) ∧
    (s.bridge.phase = .ready → ∀ more : Script, (s.run more).bridge.phase = .ready) ∧
    (s.bridge.phase ≠ .ready →
      (∀ f args u, s.bridge.invoke f args u = (.error .notInitialized, u)) ∧
      (∀ (calls : DirectCalls) name r args u, ∃ e, calls.invoke name s.bridge r args u = (.error e, u) ∧
        ∀ c, calls.calls.get? name = some c → c.accepts r u args = .ok () → e = .bridge .notInitialized) ∧
      (∀ f args found s', (Action.callInputs f args).run s = (.ok found, s') →
        (Action.perform (.invoke f args)).run s = (.error (.bridge .notInitialized), s')) ∧
      ∀ name args found s', (args.mapM Action.value).run s = (.ok found, s') →
        ∃ e, (Action.perform (.directCall name args)).run s = (.error (.registration e), s')) ∧
    (∀ input target e s', s.step (.register input) target = (.error e, s') → s' = s) ∧
    ∀ target e s', s.step .begin target = (.error e, s') → s' = s := by
  intro s t
  have phased : Phased s.bridge s.guard t := (phased_start version families policy stack).run script
  have none : s.temporaries = [] := temporaries_run script rfl
  have shut_of (shut : s.bridge.phase ≠ .ready) {s' : Session}
      (standing : Action.Standing s.bridge s.guard s') : s'.bridge.phase ≠ .ready := by rwa [standing.1]
  refine ⟨?_, ?_, phased.run_ready, fun shut => ⟨?_, ?_, ?_, ?_⟩, ?_, ?_⟩
  · rw [phased.counted]
    cases s.bridge.phase <;> decide
  · rw [phased.counted]
    cases s.bridge.phase <;> decide
  · exact Bridge.invoke_of_shut shut
  · exact DirectCalls.invoke_of_shut shut
  · intro f args found s' resolved
    have standing := Action.keeps_callInputs Action.lasting_standing f args s ⟨rfl, rfl⟩
    exact run_invoke_of_shut (shut_of shut (standing.of_ok resolved)) resolved
  · intro name args found s' resolved
    have standing := Action.keeps_mapM (Action.keeps_value Action.lasting_standing) args s ⟨rfl, rfl⟩
    exact run_directCall_of_shut (shut_of shut (standing.of_ok resolved)) resolved
  · exact fun input _ _ _ failed => step_of_unchanged (Action.ensures_register input) none failed
  · exact fun _ _ _ failed => step_of_unchanged Action.ensures_begin none failed

/-- Registration is begun, given up and begun again. -/
def begunAgain : Script := [(.begin, none), (.abandon, none), (.begin, none)]

/-- It is begun twice then, completed, and given up too late. -/
def thenCompleted : Script := begunAgain ++ [(.begin, none), (.complete, none), (.abandon, none)]

theorem registers_once_begunAgain :
    let running := (start ⟨1, 0, 0, [], []⟩ [] .full).run begunAgain
    let done := (start ⟨1, 0, 0, [], []⟩ [] .full).run thenCompleted
    running.bridge.phase = .registering ∧
      (∀ f args u, running.bridge.invoke f args u = (.error .notInitialized, u)) ∧
      (running.step (.register (.lists [] [])) none).2 = running ∧
      done.bridge.phase = .ready ∧ ∀ more : Script, (done.run more).bridge.phase = .ready := by
  intro running done
  obtain ⟨-, -, -, refused, unchanged, -⟩ := registers_once ⟨1, 0, 0, [], []⟩ [] .full 10000 begunAgain
  obtain ⟨-, -, stays, -⟩ := registers_once ⟨1, 0, 0, [], []⟩ [] .full 10000 thenCompleted
  have registering : running.bridge.phase = .registering := rfl
  have shut : running.bridge.phase ≠ .ready := by rw [registering]; decide
  have failed : running.step (.register (.lists [] [])) none =
      (.error (.registration (.bridge .registrationRunning)), (running.step (.register (.lists [] [])) none).2) := rfl
  have ready : done.bridge.phase = .ready := rfl
  exact ⟨registering, (refused shut).1, unchanged _ _ _ _ failed, ready, stays ready⟩

end Session

end ForeignBridge
