import ForeignBridge.Proofs.Calls
import ForeignBridge.Proofs.Conversions

/-! # Handles that were returned

A handle is a number, and nothing keeps a function from making one up. `runReturned` follows a program and keeps account
of the handles that were returned, to the program itself or in the calls that it makes. It has no answer if a handle is
passed in that is neither null nor among those returned by then; the result of a function counts as passed in.

What is returned was handed out: a request gives back a new slot, or a handle that the store or a cell has
(`issued_returned`). So a program that passes in only what was returned passes in only what was handed out
(`passes_run`), and so does a call, however deep it may go. -/

namespace ForeignBridge

/-- The handles in the reply to a request. -/
def Request.returned : (request : Request) → request.Reply → List Handle
  | .construct _, h => [h]
  | .create _ _, h => [h]
  | .inspect _, data => data.handles
  | .typeOf _, h => [h]
  | .submodule _ _, h => h.toList
  | .member _ _, h => h.toList
  | .family _, h => h.toList
  | .readField _ _, h => [h]
  | .call _ _, h => [h]
  | .applyFamily _ _, h => [h]
  | .provideFamily _, h => [h]
  | .defineModule _, h => [h]
  | .defineGlobal _ _ _, h => [h]
  | .pendingFault, h => h.toList
  | .bind _ _, h => h.toList
  | .read _, h => [h]
  | .describe _, _ | .rootCount _, _ | .isLive _, _ | .isCallable _, _ | .version, _ | .root _, _ | .unroot _, _
  | .raise _, _ | .clearFault, _ | .recordCalls, _ | .callLog, _ | .collect, _ | .hold _, _ | .newCell, _
  | .release _, _ => []

/-- The handles that were returned when a request is about to be replied to, `known` being those returned before it was
made: a call makes requests of its own. -/
def Request.nested (calls : Handle → List Handle → Store → List Handle → Option (List Handle)) (s : Store)
    (known : List Handle) : Request → Option (List Handle)
  | .call f args => calls f args s known
  | _ => some known

theorem Request.nested_of_quiet {request : Request} (quiet : ∀ f args, request ≠ .call f args)
    (calls : Handle → List Handle → Store → List Handle → Option (List Handle)) (s : Store) (known : List Handle) :
    request.nested calls s known = some known := by
  cases request with
  | call f args => exact absurd rfl (quiet f args)
  | _ => rfl

namespace Store

/-- The handles that were returned when the program is through, `known` being those returned before it starts. There is
no answer if it passes in a handle that is neither null nor among those returned by then. -/
def runReturned (callee : Handle → List Handle → Store → Handle × Store)
    (calls : Handle → List Handle → Store → List Handle → Option (List Handle)) :
    Program → Running → List Handle → Option (List Handle)
  | .done h, _, known => if h = .null ∨ h ∈ known then some known else none
  | .fail _, _, known => some known
  | .ask request next, r, known =>
    if ∀ h ∈ request.handles, h = .null ∨ h ∈ known then
      (request.nested calls r.store known).bind fun known =>
        let (reply, later) := r.answer callee request
        runReturned callee calls (next reply) later (request.returned reply ++ known)
    else none
  | .define path name captured body next, r, known =>
    let (h, later) := r.after (r.store.defineFunction path name (captured.filterMap (r.held[·]?)) body)
    runReturned callee calls (next h) later (h :: known)

/-- The handles that were returned after a call that may make calls `depth` levels deep. -/
def callReturnedWithin : Nat → Handle → List Handle → Store → List Handle → Option (List Handle)
  | 0, _, _, _, known => some known
  | depth + 1, f, args, s, known =>
    let s := s.note .call
    match s.object? f with
    | some (.function _ captured body) =>
      runReturned (callWithin depth) (callReturnedWithin depth) (body args) ⟨s.retainAll captured, captured⟩ known
    | _ => some known

section calls

variable {depth : ℕ} {f : Handle} {args : List Handle} {name : String} {captured : List CellId}
  {body : List Handle → Program} {s : Store} {known : List Handle}

theorem callReturnedWithin_function (found : (s.note .call).object? f = some (.function name captured body)) :
    callReturnedWithin (depth + 1) f args s known = runReturned (callWithin depth) (callReturnedWithin depth) (body args)
      ⟨(s.note .call).retainAll captured, captured⟩ known := by
  conv_lhs => unfold callReturnedWithin
  simp only [found]

theorem callReturnedWithin_of_not_function
    (other : ∀ name captured body, (s.note .call).object? f ≠ some (.function name captured body)) :
    callReturnedWithin (depth + 1) f args s known = some known := by
  unfold callReturnedWithin
  dsimp only
  split
  · next found => exact absurd found (other _ _ _)
  · rfl

end calls

/-- The handles that were returned after a call. -/
def callReturned (f : Handle) (args : List Handle) (s : Store) (known : List Handle) : Option (List Handle) :=
  callReturnedWithin s.stack f args s known

end Store

namespace Ledger

open Store (Running runReturned)

variable {callee : Handle → List Handle → Store → Handle × Store}
  {moments : List CellId → Handle → List Handle → Store → List Moment}
  {returned : Handle → List Handle → Store → List Handle → Option (List Handle)}
  {outer : List CellId} {r : Running} {R U : Multiset Handle} {known known' : List Handle}

/-! ### Requests -/

/-- A cell is found bound to a handle that was handed out. -/
theorem issued_bind (sound : Sound ⟨r.store, (outer ++ r.held : List CellId), R, U⟩) {i : ℕ} {h existing : Handle}
    (found : (r.bind i h).1 = some existing) : r.store.Issued existing := by
  unfold Running.bind at found
  split at found
  · cases found
  · next c _ =>
    split at found
    · cases found
    · next e bound =>
      obtain rfl := Option.some.inj found
      unfold Store.bind at bound
      split at bound
      · next k binding =>
        obtain rfl := Except.error.inj bound
        exact sound.closed.cells c k binding
      · cases bound

/-- **What a request returns was handed out.** -/
theorem issued_returned {request : Request} (sound : Sound ⟨r.store, (outer ++ r.held : List CellId), R, U⟩)
    (passes : ∀ h ∈ request.handles, r.store.Issued h) (quiet : ∀ f args, request ≠ .call f args) :
    ∀ h ∈ request.returned (r.answer callee request).1, (r.answer callee request).2.store.Issued h := by
  have closed := sound.closed
  have evolves := evolves_answer callee sound passes quiet
  cases request with
  | call f args => exact absurd rfl (quiet f args)
  | describe | rootCount | isLive | isCallable | version | root | unroot | raise | clearFault | recordCalls | callLog
  | collect | hold | newCell | release => exact fun _ none => absurd none List.not_mem_nil
  | construct data => exact List.forall_mem_singleton.mpr (issued_construct r.store _)
  | create type fields => exact List.forall_mem_singleton.mpr (issued_create r.store type _)
  | inspect h =>
    intro k hk
    refine evolves.issued (sound.issued_inspect h k ?_)
    rwa [← Datum.handles_map]
  | typeOf h => exact List.forall_mem_singleton.mpr (issued_typeOf closed h)
  | submodule h name =>
    exact fun k found => issued_member? closed (Option.filter_eq_some_iff.mp (Option.mem_toList.mp found)).1
  | member h name => exact fun k found => issued_member? closed (Option.mem_toList.mp found)
  | family name =>
    intro k found
    have provided : r.store.family? name = some k := Option.mem_toList.mp found
    exact issued_family? closed provided
  | readField h name => exact List.forall_mem_singleton.mpr (issued_readField closed h name)
  | applyFamily head params =>
    have applied : ∀ h, r.store.applied? head params = some h → r.store.Issued h := fun h => issued_applied? closed
    exact List.forall_mem_singleton.mpr (issued_applyFamily (passes head List.mem_cons_self) applied)
  | provideFamily name => exact List.forall_mem_singleton.mpr (issued_provideFamily closed name)
  | defineModule path => exact List.forall_mem_singleton.mpr (moves_defineModule sound path).2
  | defineGlobal path name data =>
    have resolved : ∀ h ∈ (r.resolve data).handles, r.store.Issued h := fun h hh => passes h (r.handles_resolve hh)
    exact List.forall_mem_singleton.mpr (moves_defineGlobal sound path name resolved (r.mem_resolved outer data)).2
  | pendingFault => exact fun k pending => closed.fault k (Option.mem_toList.mp pending)
  | bind i h => exact fun k found => evolves.issued (issued_bind sound (Option.mem_toList.mp found))
  | read i =>
    refine List.forall_mem_singleton.mpr ?_
    show r.store.Issued (((r.held[i]?).map r.store.read).getD Handle.null)
    cases r.held[i]? with
    | none => exact Store.issued_null _
    | some c => exact sound.issued_read c

/-! ### Programs -/

/-- Calls through `callee` that pass in only what was returned pass in only what was handed out; `moments` lists their
moments, and `returned` what was returned after them. -/
def CallsPass (callee : Handle → List Handle → Store → Handle × Store)
    (moments : List CellId → Handle → List Handle → Store → List Moment)
    (returned : Handle → List Handle → Store → List Handle → Option (List Handle)) : Prop :=
  ∀ {outer : List CellId} {f : Handle} {args : List Handle} {s : Store} {R U : Multiset Handle}
    {known known' : List Handle},
    Sound ⟨s, outer, R, U⟩ → (∀ h ∈ known, s.Issued h) → returned f args s known = some known' →
    (∀ m ∈ moments outer f args s, m.Passes) ∧ ∀ h ∈ known', (callee f args s).2.Issued h

theorem issued_of_known {s : Store} (issued : ∀ h ∈ known, s.Issued h) {h : Handle} (passed : h = .null ∨ h ∈ known) :
    s.Issued h := by
  rcases passed with rfl | returned
  · exact s.issued_null
  · exact issued h returned

/-- **A program that passes in only what was returned passes in only what was handed out.** -/
theorem passes_run (follows : Follows callee moments) (calls : CallsPass callee moments returned) (p : Program) :
    ∀ {r : Running} {R U : Multiset Handle} {known : List Handle},
      Sound ⟨r.store, (outer ++ r.held : List CellId), R, U⟩ → (∀ h ∈ known, r.store.Issued h) →
      runReturned callee returned p r known = some known' →
      (∀ m ∈ Store.programMoments callee moments outer p r, m.Passes) ∧
        ∀ h ∈ known', (Store.run callee p r).2.store.Issued h := by
  induction p with
  | done result =>
    intro r R U known _ issued through
    obtain ⟨passed, same⟩ := Option.ite_none_right_eq_some.mp through
    obtain rfl := Option.some.inj same
    refine ⟨List.forall_mem_singleton.mpr fun h hh => ?_, issued⟩
    rw [List.mem_singleton.mp hh]
    exact issued_of_known issued passed
  | fail message =>
    intro r R U known _ issued through
    obtain rfl := Option.some.inj through
    exact ⟨fun _ none => absurd none List.not_mem_nil, issued⟩
  | ask request next ih =>
    intro r R U known sound issued through
    obtain ⟨passed, through⟩ := Option.ite_none_right_eq_some.mp through
    obtain ⟨between, within, through⟩ := Option.bind_eq_some_iff.mp through
    have passes : ∀ h ∈ request.handles, r.store.Issued h := fun h hh => issued_of_known issued (passed h hh)
    rcases request.quiet_or_call with quiet | ⟨f, args, rfl⟩
    · have evolves := evolves_answer callee sound passes quiet
      rw [Request.nested_of_quiet quiet] at within
      obtain rfl := Option.some.inj within
      have issued' : ∀ h ∈ request.returned (r.answer callee request).1 ++ known,
          (r.answer callee request).2.store.Issued h := by
        intro h hh
        rcases List.mem_append.mp hh with new | old
        · exact issued_returned sound passes quiet h new
        · exact evolves.issued (issued h old)
      obtain ⟨rest, known'⟩ := ih _ (evolves.sound sound) issued' through
      rw [programMoments_ask quiet]
      exact ⟨List.forall_mem_cons.mpr ⟨passes, rest⟩, known'⟩
    · -- What the function was given in its own requests counts as returned, whether or not it passes it on.
      obtain ⟨inner, issued₁⟩ := calls sound issued within
      obtain ⟨R₁, U₁, called⟩ := along_call_request follows sound passes inner
      have arguments : ∀ h ∈ args, r.store.Issued h := fun h hh => passes h (List.mem_cons_of_mem _ hh)
      have result := (follows sound (passes f List.mem_cons_self) arguments inner).2
      have issued' : ∀ h ∈ (callee f args r.store).1 :: between, (callee f args r.store).2.Issued h :=
        List.forall_mem_cons.mpr ⟨result, issued₁⟩
      obtain ⟨rest, known'⟩ := ih (r.answer callee (.call f args)).1 (r := (r.answer callee (.call f args)).2)
        (called.evolves.sound sound) issued' through
      exact ⟨List.forall_mem_cons.mpr ⟨passes, List.forall_mem_append.mpr ⟨inner, rest⟩⟩, known'⟩
  | define path name captured body next _ ih =>
    intro r R U known sound issued through
    obtain ⟨defined, made⟩ := moves_defineFunction sound path name _ body fun _ => r.mem_captured outer captured
    refine ih _ (r := ⟨_, r.held⟩) (defined.sound sound) (List.forall_mem_cons.mpr ⟨made, fun h hh => ?_⟩) through
    exact defined.issued (issued h hh)

/-- **So does a call, however deep it may go.** -/
theorem passes_callWithin (depth : ℕ) :
    CallsPass (Store.callWithin depth) (Store.callMomentsWithin depth) (Store.callReturnedWithin depth) := by
  induction depth with
  | zero =>
    intro outer f args s R U known known' _ issued through
    obtain rfl := Option.some.inj through
    have halted : Moves ⟨s, outer, R, U⟩ ⟨(Store.callWithin 0 f args s).2, outer, R, U⟩ := moves_halt
    exact ⟨fun _ none => absurd none List.not_mem_nil, fun h hh => halted.issued (issued h hh)⟩
  | succ depth ih =>
    intro outer f args s R U known known' sound issued through
    have noted : Moves ⟨s, outer, R, U⟩ ⟨s.note .call, outer, R, U⟩ := moves_note _
    rcases (s.note .call).function_or_other f with ⟨name, captured, body, found⟩ | other
    · rw [Store.callReturnedWithin_function found] at through
      rw [Store.callMomentsWithin_function found, Store.callWithin_function found]
      have entered : Moves ⟨s, outer, R, U⟩ _ := moves_entered found
      obtain ⟨passes, issued'⟩ := passes_run (along_callWithin depth) ih (body args) (entered.sound sound)
        (fun h hh => entered.issued (issued h hh)) through
      refine ⟨passes, ?_⟩
      generalize Store.run (Store.callWithin depth) (body args) ⟨(s.note .call).retainAll captured, captured⟩ = ended
        at issued' ⊢
      obtain ⟨outcome, r⟩ := ended
      have released : Moves ⟨r.store, (r.held : Multiset CellId) + 0, 0, 0⟩ ⟨r.store.releaseAll r.held, 0, 0, 0⟩ :=
        moves_releaseAll r.held
      cases outcome with
      | ok h => exact fun k hk => released.issued (issued' k hk)
      | error message => exact fun k hk => (released.trans (moves_raiseMessage message)).issued (issued' k hk)
    · rw [Store.callReturnedWithin_of_not_function other] at through
      obtain rfl := Option.some.inj through
      obtain ⟨message, called⟩ := Store.callWithin_of_not_function depth args other
      rw [Store.callMomentsWithin_of_not_function other, called]
      have raised := noted.trans (moves_raiseAbout f message)
      exact ⟨fun _ none => absurd none List.not_mem_nil, fun h hh => raised.issued (issued h hh)⟩

theorem passes_call : CallsPass Store.call Store.callMoments Store.callReturned :=
  fun {_ _ _ s _ _ _ _} => passes_callWithin s.stack

end Ledger

end ForeignBridge
