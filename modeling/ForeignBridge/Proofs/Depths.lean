import ForeignBridge.Proofs.Faults

/-! # How deep calls nest

A call that nests deeper than its bound allows halts the process. The bound does nothing else: a call that comes to an
end within some depth comes to the same end within every greater depth (`callWithin_mono`). So wherever two depths are
enough, they give the same (`callWithin_unique`).

Once the process is halted, it stays so, whatever a program does (`halted_run`). So the calls that a program makes on its
way to an end come to an end themselves, and with other calls that end in the same way it takes the same way
(`run_of_agrees`). -/

namespace ForeignBridge

namespace Store

variable {s : Store} {h : Handle} {depth depth' : ℕ} {callee callee' : Handle → List Handle → Store → Handle × Store}

/-! ### What is halted stays halted -/

theorem halted_raise (data : Datum CellId) (s : Store) : (s.raise data).halted = s.halted := by
  have allocated := halted_of_protocol (protocol_allocate (.value data) s)
  exact allocated

theorem halted_applyFamily (head : Handle) (params : List Handle) (s : Store) :
    (s.applyFamily head params).2.halted = s.halted := by
  have ways := s.appliesFamily head params
  generalize s.applyFamily head params = result at ways ⊢
  cases ways with
  | refused => exact halted_raise _ _
  | itself | shared | made => rfl

theorem halted_describe (halted : s.halted = true) : (s.describe h).2.halted = true := by
  unfold describe
  dsimp only
  cases (s.note .describe).description h with
  | none => rfl
  | some text => exact halted

theorem halted_raiseAbout (message : String → String) (halted : s.halted = true) :
    (s.raiseAbout h message).halted = true := by
  obtain ⟨_, _, same⟩ | ⟨_, same⟩ := s.raiseAbout_cases h message
  · rw [same]
    exact (halted_raise _ s).trans halted
  · rw [same]
    rfl

theorem halted_readField (name : String) (halted : s.halted = true) : (s.readField h name).2.halted = true := by
  obtain ⟨_, _, same⟩ | ⟨_, _, same⟩ := s.readField_cases h name
  · rw [same]
    exact halted
  · rw [same]
    exact halted_raiseAbout _ halted

theorem halted_inspect (r : Running) (h : Handle) : (r.inspect h).2.store.halted = r.store.halted := by
  refine (halted_of_protocol (protocol_retainAll _ _)).trans ?_
  show (r.store.inspect h).2.halted = r.store.halted
  rw [inspect_snd]
  rfl

/-- A halted process stays halted in each call. -/
def KeepsHalted (callee : Handle → List Handle → Store → Handle × Store) : Prop :=
  ∀ f args s, s.halted = true → (callee f args s).2.halted = true

theorem halted_answer (calls : KeepsHalted callee) (r : Running) (halted : r.store.halted = true) (request : Request) :
    (r.answer callee request).2.store.halted = true := by
  cases request with
  | call f args => exact calls f args r.store halted
  | describe h => exact halted_describe halted
  | readField h name => exact halted_readField name halted
  | rootCount | isLive | isCallable | typeOf | submodule | member | family | version | callLog | read => exact halted
  | pendingFault | clearFault | recordCalls | newCell => exact halted
  | construct data => exact (halted_of_protocol (protocol_allocate _ _)).trans halted
  | create type fields => exact (halted_of_protocol (protocol_create _ _ _)).trans halted
  | inspect h => exact (halted_inspect r h).trans halted
  | applyFamily head params => exact (halted_applyFamily _ _ _).trans halted
  | provideFamily name => exact (halted_of_protocol (protocol_provideFamily _ _)).trans halted
  | defineModule path => exact (halted_of_protocol (protocol_defineModule _ _)).trans halted
  | defineGlobal path name data => exact (halted_of_protocol (protocol_defineGlobal _ _ _ _)).trans halted
  | root h | unroot h => exact (halted_of_protocol (protocol_updateSlot _ _ _)).trans halted
  | raise data => exact (halted_raise _ _).trans halted
  | collect => exact (halted_of_protocol (protocol_collect _)).trans halted
  | hold h => exact (halted_of_protocol (protocol_hold _ _)).trans halted
  | bind i h =>
    obtain same | ⟨_, _, _, bound, same⟩ := r.bind_cases i h
    · exact (congrArg (·.store.halted) same).trans halted
    · exact (congrArg (·.store.halted) same).trans ((halted_of_protocol (protocol_bind bound)).trans halted)
  | release i =>
    obtain same | ⟨_, same⟩ := r.release_cases i
    · exact (congrArg (·.store.halted) same).trans halted
    · exact (congrArg (·.store.halted) same).trans ((halted_of_protocol (protocol_releaseAll [_] _)).trans halted)

/-- **A halted process stays halted.** -/
theorem halted_run (calls : KeepsHalted callee) (program : Program) :
    ∀ r : Running, r.store.halted = true → (run callee program r).2.store.halted = true := by
  induction program with
  | done | fail => exact fun _ halted => halted
  | ask request next ih => exact fun r halted => ih _ _ (halted_answer calls r halted request)
  | define path name captured body next _ ih =>
    exact fun r halted => ih _ _ ((halted_of_protocol (protocol_defineFunction ..)).trans halted)

theorem halted_callWithin (depth : ℕ) : KeepsHalted (callWithin depth) := by
  induction depth with
  | zero => exact fun _ _ _ _ => rfl
  | succ depth ih =>
    intro f args s halted
    rcases (s.note .call).function_or_other f with ⟨name, captured, body, found⟩ | other
    · rw [callWithin_function found]
      have ended := halted_run ih (body args) ⟨(s.note .call).retainAll captured, captured⟩
        ((halted_of_protocol (protocol_retainAll _ _)).trans halted)
      generalize run (callWithin depth) (body args) ⟨(s.note .call).retainAll captured, captured⟩ = result at ended ⊢
      obtain ⟨outcome, r⟩ := result
      have left := (halted_of_protocol (protocol_releaseAll r.held r.store)).trans ended
      cases outcome with
      | ok => exact left
      | error => exact (halted_raise _ _).trans left
    · obtain ⟨message, same⟩ := callWithin_of_not_function depth args other
      rw [same]
      exact halted_raiseAbout message halted

/-! ### Greater depths -/

/-- `callee'` does the same as `callee` in all calls that `callee` brings to an end. -/
def Agrees (callee callee' : Handle → List Handle → Store → Handle × Store) : Prop :=
  ∀ f args s, (callee f args s).2.halted = false → callee' f args s = callee f args s

/-- A program that comes to an end comes to the same end where its calls agree. -/
theorem run_of_agrees (calls : KeepsHalted callee) (agrees : Agrees callee callee') (program : Program) :
    ∀ r : Running, (run callee program r).2.store.halted = false → run callee' program r = run callee program r := by
  induction program with
  | done | fail => exact fun _ _ => rfl
  | ask request next ih =>
    intro r ended
    -- had the request halted the process, the program would not have ended
    have answered : (r.answer callee request).2.store.halted = false := by
      by_contra halted
      rw [Bool.not_eq_false] at halted
      exact Bool.false_ne_true (ended.symm.trans (halted_run calls (next _) _ halted))
    have same : r.answer callee' request = r.answer callee request := by
      rcases request.quiet_or_call with quiet | ⟨f, args, rfl⟩
      · cases request with
        | call f args => exact absurd rfl (quiet f args)
        | _ => rfl
      · exact congrArg r.after (agrees f args r.store answered)
    show run callee' (next (r.answer callee' request).1) (r.answer callee' request).2 = _
    rw [same]
    exact ih _ _ ended
  | define path name captured body next _ ih => exact fun r ended => ih _ _ ended

theorem agrees_callWithin_succ (depth : ℕ) : Agrees (callWithin depth) (callWithin (depth + 1)) := by
  induction depth with
  | zero => exact fun _ _ _ ended => absurd ended Bool.false_ne_true.symm
  | succ depth ih =>
    intro f args s ended
    rcases (s.note .call).function_or_other f with ⟨name, captured, body, found⟩ | other
    · rw [callWithin_function found] at ended
      rw [callWithin_function found, callWithin_function found, run_of_agrees (halted_callWithin depth) ih]
      generalize run (callWithin depth) (body args) ⟨(s.note .call).retainAll captured, captured⟩ = result at ended
      obtain ⟨outcome, r⟩ := result
      have released := halted_of_protocol (protocol_releaseAll r.held r.store)
      cases outcome with
      | ok => exact released.symm.trans ended
      | error => exact ((halted_raise _ _).trans released).symm.trans ended
    · unfold callWithin
      dsimp only
      split
      · next found => exact absurd found (other _ _ _)
      · rfl

/-- **A call that ends within some depth ends in the same way within every greater one.** -/
theorem callWithin_mono (deeper : depth ≤ depth') : Agrees (callWithin depth) (callWithin depth') := by
  induction deeper with
  | refl => exact fun _ _ _ _ => rfl
  | step _ ih =>
    intro f args s ended
    have same := ih f args s ended
    exact (agrees_callWithin_succ _ f args s (same ▸ ended)).trans same

/-- Where two depths are enough for a call, they give the same. -/
theorem callWithin_unique {f : Handle} {args : List Handle} (ended : (callWithin depth f args s).2.halted = false)
    (ended' : (callWithin depth' f args s).2.halted = false) :
    callWithin depth f args s = callWithin depth' f args s := by
  rcases le_total depth depth' with deeper | deeper
  · exact (callWithin_mono deeper f args s ended).symm
  · exact callWithin_mono deeper f args s ended'

end Store

end ForeignBridge
