import ForeignBridge.Proofs.Registrations

/-! # Crossings of the host

A call of the host converts its arguments, lets the function run and converts the result. While the function runs, the
converted arguments are held besides what was held before (`Bridge.callMoments`); in the end only the cells of the
result are. The moments of a call are those of the function, since nothing is collected before it starts or after it
ends. -/

namespace ForeignBridge

/-- The moments of a call of the host, with `outer` held by those who wait for it. -/
def Bridge.callMoments (b : Bridge) (f : Callable) (args : List (Value CellId)) (outer : List CellId) (s : Store) :
    List Moment :=
  match b.enter f args s with
  | (.ok held, s) => Store.callMoments (held ++ outer) (s.read f.cell) (held.map s.read) s
  | (.error _, _) => []

/-- The moments of a direct call, with `outer` held by those who wait for it. -/
def DirectCalls.callMoments (d : DirectCalls) (name : String) (b : Bridge) (r : Registry) (args : List (Value CellId))
    (outer : List CellId) (s : Store) : List Moment :=
  match d.calls.get? name with
  | none => []
  | some call =>
    match call.accepts r s args with
    | .error _ => []
    | .ok () => b.callMoments call.function args outer s

/-! ### How calls end -/

namespace Bridge

variable {b : Bridge} {s t : Store}

theorem invoke_of_entered {f : Callable} {args : List (Value CellId)} {held : List CellId}
    (entered : b.enter f args s = (.ok held, t)) : b.invoke f args s =
      b.leave f.autoConvert held (t.crossing (Store.call (t.read f.cell) (held.map t.read))) := by
  rw [invoke, entered]

theorem readField_of_reference? {v : Value CellId} {c : CellId} (there : v.reference? = some c) {name : String}
    {autoConvert : Bool} : b.readField v name autoConvert s =
      b.leave autoConvert [] (s.crossing (Store.readField (s.read c) name)) := by
  rw [readField, there]

end Bridge

namespace DirectCall

/-- The ways in which a direct call ends: it is refused, or the call that it makes fails, or the result is handed back,
or it does not have the declared type and is given up. -/
inductive Ends (c : DirectCall) (b : Bridge) (r : Registry) (args : List (Value CellId)) (s : Store) :
    Except RegistrationError (Value CellId) × Store → Prop
  | refused {e : RegistrationError} (refused : c.accepts r s args = .error e) : Ends c b r args s (.error e, s)
  | failed {e : BridgeError} {t : Store} (accepted : c.accepts r s args = .ok ())
      (ended : b.invoke c.function args s = (.error e, t)) : Ends c b r args s (.error (.bridge e), t)
  | returned {v : Value CellId} {t : Store} (accepted : c.accepts r s args = .ok ())
      (ended : b.invoke c.function args s = (.ok v, t)) : Ends c b r args s (.ok v, t)
  | misfit {v : Value CellId} {t : Store} {expected : TypeExpr} {e : RegistrationError}
      (accepted : c.accepts r s args = .ok ()) (ended : b.invoke c.function args s = (.ok v, t))
      (declared : c.returns = some expected) (refused : c.check r t .result expected v = .error e) :
      Ends c b r args s (.error e, t.releaseAll v.references)

theorem ends_invoke (c : DirectCall) (b : Bridge) (r : Registry) (args : List (Value CellId)) (s : Store) :
    c.Ends b r args s (c.invoke b r args s) := by
  unfold invoke
  cases accepted : c.accepts r s args with
  | error e => exact .refused accepted
  | ok =>
    dsimp only
    cases ended : b.invoke c.function args s with
    | mk outcome t =>
      cases outcome with
      | error e => exact .failed accepted ended
      | ok v =>
        dsimp only
        cases declared : c.returns with
        | none => exact .returned accepted ended
        | some expected =>
          dsimp only
          cases checked : c.check r t .result expected v with
          | ok => exact .returned accepted ended
          | error e => exact .misfit accepted ended declared checked

end DirectCall

namespace Ledger

/-! ### The end of a crossing -/

section crossing

variable {s : Store} {o : Multiset CellId} {R U : Multiset Handle}

/-- After a crossing, what was held for it is released and the cells of the result are handed back. -/
theorem moves_leave (b : Bridge) (autoConvert : Bool) (cells : List CellId) {f : Store → Handle × Store}
    (sound : Sound ⟨(f s).2, cells + o, R, U⟩) (issued : (f s).2.Issued (f s).1) :
    Moves ⟨(f s).2, cells + o, R, U⟩ ⟨(b.leave autoConvert cells (s.crossing f)).2,
      (handedBack Value.references (b.leave autoConvert cells (s.crossing f)).1 : Multiset CellId) + o, R, U⟩ := by
  have checked : Moves ⟨(f s).2, cells + o, R, U⟩
      ⟨(s.crossing f).2, cells + o, R, U⟩ := by
    rw [crossing_snd]
    exact moves_takeFault
  generalize crossed : s.crossing f = result at checked ⊢
  obtain ⟨outcome, t⟩ := result
  have released : Moves ⟨t, cells + o, R, U⟩ ⟨t.releaseAll cells, o, R, U⟩ := moves_releaseAll cells
  have ended := checked.trans released
  cases outcome with
  | error e => exact ended.trans (Gives.error (.refl _))
  | ok h =>
    have received := gives_receive b autoConvert (ended.sound sound) (released.issued (issued_crossing issued crossed))
    exact ended.trans received

/-- A field comes back as a value whose cells the caller holds. -/
theorem gives_readField (b : Bridge) (v : Value CellId) (name : String) (autoConvert : Bool)
    (sound : Sound ⟨s, o, R, U⟩) : Gives s o R U Value.references (b.readField v name autoConvert s) := by
  unfold Bridge.readField
  split
  · exact Gives.error (.refl _)
  · next c _ =>
    have read := moves_readField (s := s) (o := o) (r := R) (u := U) (s.read c) name
    have none : (([] : List CellId) : Multiset CellId) + o = o := zero_add o
    have left := moves_leave b autoConvert [] (f := Store.readField (s.read c) name) (o := o)
      (by rw [none]; exact read.sound sound) (issued_readField sound.closed (s.read c) name)
    rw [none] at left
    exact read.trans left

theorem gives_functionAt (path : String) (autoConvert : Bool) :
    Gives s o R U Value.references (Bridge.functionAt path autoConvert s) := by
  unfold Bridge.functionAt
  split
  · exact Gives.error (.refl _)
  · next h found =>
    exact Gives.one (moves_hold (issued_resolveFunction found)) rfl

end crossing

/-! ### Calls -/

section calls

variable {s : Store} {outer : List CellId} {R U : Multiset Handle}

/-- **A call of the host leads the ledger along its moments, and hands back the cells of its result or nothing.** -/
theorem along_invoke (b : Bridge) (f : Callable) (args : List (Value CellId)) (sound : Sound ⟨s, outer, R, U⟩)
    (held : ∀ c ∈ Value.referencesItems args, c ∈ outer) (passes : ∀ m ∈ b.callMoments f args outer s, m.Passes) :
    ∃ R' U', Along ⟨s, outer, R, U⟩ (b.callMoments f args outer s)
      ⟨(b.invoke f args s).2, (handedBack Value.references (b.invoke f args s).1 : Multiset CellId) + outer,
        R', U'⟩ := by
  have entered := gives_enter b f args sound held
  unfold Bridge.callMoments at passes ⊢
  unfold Bridge.invoke
  generalize b.enter f args s = start at entered passes ⊢
  obtain ⟨outcome, t⟩ := start
  cases outcome with
  | error e => exact ⟨R, U, .of_evolves (Moves.evolves entered)⟩
  | ok cells =>
    dsimp only at passes ⊢
    have first : Moves ⟨s, outer, R, U⟩ ⟨t, (cells ++ outer : List CellId), R, U⟩ := entered
    have sound' := first.sound sound
    obtain ⟨⟨R', U', along⟩, issued⟩ := along_call sound' (sound'.issued_read f.cell) (sound'.issued_reads cells) passes
    rw [← Multiset.coe_add] at along
    have left := moves_leave b f.autoConvert cells (along.evolves.sound sound') issued
    exact ⟨R', U', (along.before first.evolves).after left.evolves⟩

/-- **A direct call leads the ledger along its moments, and hands back the cells of its result or nothing.** -/
theorem along_directCall (d : DirectCalls) (name : String) (b : Bridge) (r : Registry) (args : List (Value CellId))
    (sound : Sound ⟨s, outer, R, U⟩) (held : ∀ c ∈ Value.referencesItems args, c ∈ outer)
    (passes : ∀ m ∈ d.callMoments name b r args outer s, m.Passes) :
    ∃ R' U', Along ⟨s, outer, R, U⟩ (d.callMoments name b r args outer s) ⟨(d.invoke name b r args s).2,
      (handedBack Value.references (d.invoke name b r args s).1 : Multiset CellId) + outer, R', U'⟩ := by
  unfold DirectCalls.callMoments at passes ⊢
  unfold DirectCalls.invoke
  cases found : d.calls.get? name with
  | none => exact ⟨R, U, .of_evolves (.refl _)⟩
  | some call =>
    rw [found] at passes
    have ends := call.ends_invoke b r args s
    dsimp only at passes ⊢
    generalize call.invoke b r args s = result at ends ⊢
    cases ends with
    | refused refused =>
      rw [refused]
      exact ⟨R, U, .of_evolves (.refl _)⟩
    | failed accepted ended | returned accepted ended =>
      rw [accepted] at passes ⊢
      have along := along_invoke b call.function args sound held passes
      rw [ended] at along
      exact along
    | misfit accepted ended =>
      rw [accepted] at passes ⊢
      obtain ⟨R', U', along⟩ := along_invoke b call.function args sound held passes
      rw [ended] at along
      exact ⟨R', U', along.after (moves_releaseAll _).evolves⟩

end calls

end Ledger

end ForeignBridge
