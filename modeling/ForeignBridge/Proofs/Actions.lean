import ForeignBridge.Proofs.Crossings
import ForeignBridge.Session

/-! # Reasoning about actions

`Ensures a s E Q` says that the action `a`, run from the session `s`, ends in a session with `Q` together with its
result, or fails in a session with `E`. The rules follow the way actions are written: one for each primitive, one for
sequencing and one for going through a list.

`Keeps I a` says that the action keeps an invariant of sessions, however it ends. Resolving the inputs of a step keeps
every invariant that allows for more cells to be held (`Lasting`). -/

namespace ForeignBridge

namespace Session

namespace Action

variable {α β : Type}

/-- The outcome of an action, by whether it fails. -/
def Ensures (a : Action α) (s : Session) (E : Session → Prop) (Q : α → Session → Prop) : Prop :=
  match a.run s with
  | (.ok x, s') => Q x s'
  | (.error _, s') => E s'

section rules

variable {s : Session} {E : Session → Prop} {Q : α → Session → Prop} {R : β → Session → Prop}

theorem ensures_pure {x : α} (holds : Q x s) : Ensures (pure x) s E Q := holds

theorem ensures_throw {e : StepError} (fails : E s) : Ensures (throw e) s E Q := fails

theorem ensures_get {Q : Session → Session → Prop} (holds : Q s s) : Ensures (get : Action Session) s E Q := holds

theorem ensures_set {t : Session} {Q : PUnit → Session → Prop} (holds : Q ⟨⟩ t) :
    Ensures (set t : Action PUnit) s E Q := holds

theorem ensures_modify {f : Session → Session} {Q : PUnit → Session → Prop} (holds : Q ⟨⟩ (f s)) :
    Ensures (modify f : Action PUnit) s E Q := holds

theorem run_bind (a : Action α) (f : α → Action β) (s : Session) : (a >>= f).run s =
    match a.run s with
    | (.ok x, s') => (f x).run s'
    | (.error e, s') => (.error e, s') := by
  show (ExceptT.bind a f).run s = _
  simp only [ExceptT.bind, ExceptT.run, ExceptT.mk, bind, StateT.bind]
  rcases a s with ⟨_ | _, _⟩ <;> rfl

theorem ensures_bind {a : Action α} {f : α → Action β} (first : Ensures a s E fun x s' => Ensures (f x) s' E R) :
    Ensures (a >>= f) s E R := by
  unfold Ensures at first ⊢
  rw [run_bind]
  generalize a.run s = outcome at first ⊢
  obtain ⟨_ | x, s'⟩ := outcome
  · exact first
  · exact first

/-- What an action ensures is so of the outcome it comes to. -/
theorem Ensures.of_ok {a : Action α} {x : α} {s' : Session} (ensures : Ensures a s E Q) (ran : a.run s = (.ok x, s')) :
    Q x s' := by
  unfold Ensures at ensures
  rwa [ran] at ensures

theorem Ensures.of_error {a : Action α} {e : StepError} {s' : Session} (ensures : Ensures a s E Q)
    (ran : a.run s = (.error e, s')) : E s' := by
  unfold Ensures at ensures
  rwa [ran] at ensures

theorem ensures_onStore {f : Store → α × Store} (holds : Q (f s.store).1 { s with store := (f s.store).2 }) :
    Ensures (onStore f) s E Q := holds

theorem ensures_ask {f : Store → α} (holds : Q (f s.store) s) : Ensures (ask f) s E Q := holds

theorem ensures_lift {ε : Type} {wrap : ε → StepError} {outcome : Except ε α} (fails : E s)
    (holds : ∀ x, outcome = .ok x → Q x s) : Ensures (lift wrap outcome) s E Q := by
  cases outcome with
  | ok x => exact holds x rfl
  | error e => exact fails

theorem ensures_tryStore {ε : Type} {wrap : ε → StepError} {f : Store → Except ε α × Store}
    (fails : ∀ e, (f s.store).1 = .error e → E { s with store := (f s.store).2 })
    (holds : ∀ x, (f s.store).1 = .ok x → Q x { s with store := (f s.store).2 }) : Ensures (tryStore wrap f) s E Q := by
  apply ensures_bind
  apply ensures_onStore
  cases outcome : (f s.store).1 with
  | ok x => exact holds x outcome
  | error e => exact fails e outcome

theorem run_tryStore {ε : Type} {wrap : ε → StepError} {f : Store → Except ε α × Store} {x : α}
    (ok : (f s.store).1 = .ok x) : (tryStore wrap f).run s = (.ok x, { s with store := (f s.store).2 }) := by
  unfold tryStore
  rw [run_bind]
  show (lift wrap (f s.store).1).run _ = _
  rw [ok]
  rfl

theorem run_tryStore_error {ε : Type} {wrap : ε → StepError} {f : Store → Except ε α × Store} {e : ε}
    (failed : (f s.store).1 = .error e) :
    (tryStore wrap f).run s = (.error (wrap e), { s with store := (f s.store).2 }) := by
  unfold tryStore
  rw [run_bind]
  show (lift wrap (f s.store).1).run _ = _
  rw [failed]
  rfl

theorem Ensures.imp {a : Action α} {E' : Session → Prop} {Q' : α → Session → Prop} (ensures : Ensures a s E Q)
    (fails : ∀ s', E s' → E' s') (holds : ∀ x s', Q x s' → Q' x s') : Ensures a s E' Q' := by
  unfold Ensures at ensures ⊢
  split at ensures
  · exact holds _ _ ensures
  · exact fails _ ensures

/-- Going through a list keeps an invariant; what holds of a result goes on to hold. -/
theorem ensures_mapM {f : α → Action β} {I : Session → Prop} {P : β → Session → Prop} {go : Session → Session → Prop}
    (refl : ∀ s, go s s) (trans : ∀ {s t w}, go s t → go t w → go s w) (stable : ∀ {x s s'}, P x s → go s s' → P x s') :
    ∀ (xs : List α) {s : Session}, (∀ x ∈ xs, ∀ s, I s → Ensures (f x) s E fun y s' => I s' ∧ go s s' ∧ P y s') → I s →
      Ensures (xs.mapM f) s E fun ys s' => I s' ∧ go s s' ∧ ∀ y ∈ ys, P y s'
  | [], s, _, holds => by
      rw [List.mapM_nil]
      exact ensures_pure ⟨holds, refl s, fun y hy => by cases hy⟩
  | x :: xs, s, each, holds => by
      rw [List.mapM_cons]
      apply ensures_bind
      refine (each x List.mem_cons_self s holds).imp (fun _ h => h) fun y s' ⟨holds', went, good⟩ => ?_
      apply ensures_bind
      refine (ensures_mapM (P := P) refl trans stable xs (fun z hz => each z (List.mem_cons_of_mem _ hz)) holds').imp
        (fun _ h => h) fun ys s'' ⟨holds'', went', all⟩ => ?_
      refine ensures_pure ⟨holds'', trans went went', fun z hz => ?_⟩
      rcases List.mem_cons.mp hz with rfl | hz
      · exact stable good went'
      · exact all z hz

end rules

/-! ### Keeping an invariant -/

/-- An action that keeps an invariant, however it ends. -/
def Keeps (I : Session → Prop) (a : Action α) : Prop := ∀ s, I s → Ensures a s I fun _ => I

section keeps

variable {I : Session → Prop}

theorem keeps_pure (x : α) : Keeps I (pure x : Action α) := fun _ holds => ensures_pure holds

theorem keeps_throw (e : StepError) : Keeps I (throw e : Action α) := fun _ holds => ensures_throw holds

theorem keeps_get : Keeps I (get : Action Session) := fun _ holds => ensures_get holds

theorem keeps_bind {a : Action α} {f : α → Action β} (first : Keeps I a) (later : ∀ x, Keeps I (f x)) :
    Keeps I (a >>= f) := by
  intro s holds
  apply ensures_bind
  exact (first s holds).imp (fun _ failed => failed) fun x s' holds' => later x s' holds'

theorem keeps_map {a : Action α} (f : α → β) (first : Keeps I a) : Keeps I (do return f (← a)) :=
  keeps_bind first fun _ => keeps_pure _

theorem keeps_modify {f : Session → Session} (keeps : ∀ s, I s → I (f s)) : Keeps I (modify f) :=
  fun s holds => ensures_modify (keeps s holds)

theorem keeps_onStore {f : Store → α × Store} (keeps : ∀ s, I s → I { s with store := (f s.store).2 }) :
    Keeps I (onStore f) := fun s holds => ensures_onStore (keeps s holds)

theorem keeps_ask (f : Store → α) : Keeps I (ask f) := fun _ holds => ensures_ask holds

theorem keeps_lift {ε : Type} (wrap : ε → StepError) (outcome : Except ε α) : Keeps I (lift wrap outcome) :=
  fun _ holds => ensures_lift holds fun _ _ => holds

theorem keeps_mapM {f : α → Action β} (each : ∀ x, Keeps I (f x)) : ∀ xs : List α, Keeps I (xs.mapM f)
  | [] => by
      rw [List.mapM_nil]
      exact keeps_pure []
  | x :: xs => by
      rw [List.mapM_cons]
      exact keeps_bind (each x) fun _ => keeps_map _ (keeps_mapM each xs)

theorem keeps_asked (f : Store → Answer) : Keeps I (asked f) := keeps_map _ (keeps_ask f)

/-! ### Inputs that are looked up -/

theorem keeps_lookup (name : String) : Keeps I (lookup name) := by
  refine keeps_bind keeps_get fun s => ?_
  split
  · exact keeps_pure _
  · exact keeps_throw _

theorem keeps_handle (input : HandleInput) : Keeps I (handle input) := by
  cases input with
  | number h => exact keeps_pure h
  | named name =>
    refine keeps_bind (keeps_lookup name) fun b => keeps_bind keeps_get fun s => ?_
    split
    · exact keeps_pure _
    · exact keeps_throw _

theorem keeps_cellOf (name : String) : Keeps I (cellOf name) := by
  refine keeps_bind (keeps_lookup name) fun b => ?_
  split
  · exact keeps_pure _
  · split
    · exact keeps_pure _
    · exact keeps_throw _
  · exact keeps_throw _

theorem keeps_origin (r : ReferenceInput) : Keeps I (origin r) := by
  cases r with
  | fresh h => exact keeps_map _ (keeps_handle h)
  | splice name =>
    refine keeps_bind (keeps_lookup name) fun b => ?_
    split
    · exact keeps_pure _
    · exact keeps_pure _
    · exact keeps_pure _
    · exact keeps_pure _
    · exact keeps_throw _

mutual

theorem keeps_resolve : ∀ v : ValueInput, Keeps I (resolve v)
  | .nil => keeps_pure _
  | .bool _ => keeps_pure _
  | .int _ => keeps_pure _
  | .float _ => keeps_pure _
  | .str _ => keeps_pure _
  | .symbol _ => keeps_pure _
  | .list items => keeps_map _ (keeps_resolveItems items)
  | .record fields => keeps_map _ (keeps_resolveFields fields)
  | .foreign r => keeps_origin r
  | .function (.fresh h) _ => keeps_map _ (keeps_handle h)
  | .function (.splice _) _ => keeps_throw _

theorem keeps_resolveItems : ∀ items : List ValueInput, Keeps I (resolveItems items)
  | [] => keeps_pure _
  | v :: rest => keeps_bind (keeps_resolve v) fun _ => keeps_map _ (keeps_resolveItems rest)

theorem keeps_resolveFields : ∀ fields : List (String × ValueInput), Keeps I (resolveFields fields)
  | [] => keeps_pure _
  | (_, v) :: rest => keeps_bind (keeps_resolve v) fun _ => keeps_map _ (keeps_resolveFields rest)

end

theorem keeps_typeExpr (text : String) : Keeps I (typeExpr text) := keeps_lift _ _

theorem keeps_callHandles (f : HandleInput) (args : List HandleInput) : Keeps I (callHandles f args) :=
  keeps_bind (keeps_handle f) fun _ => keeps_map _ (keeps_mapM keeps_handle args)

theorem keeps_settings (input : SettingsInput) : Keeps I (settings input) := by
  cases input with
  | document source => exact keeps_lift _ _
  | lists disabled instances => exact keeps_map _ (keeps_mapM keeps_typeExpr instances)

theorem keeps_directCallSpec (input : DirectCallInput) : Keeps I (directCallSpec input) := by
  refine keeps_bind (keeps_mapM keeps_typeExpr _) fun params => ?_
  cases input.returns with
  | none => exact keeps_pure _
  | some text => exact keeps_bind (keeps_map _ (keeps_typeExpr text)) fun _ => keeps_pure _

theorem keeps_directCallsView : Keeps I directCallsView := keeps_map _ keeps_get

/-! ### Inputs with cells -/

/-- An invariant that allows for more cells to be held. -/
structure Lasting (I : Session → Prop) : Prop where
  hold : ∀ {s : Session} (h : Handle), I s → I { s with store := (s.store.hold h).2 }
  retain : ∀ {s : Session} (c : CellId), I s → I { s with store := s.store.retain c }
  temporaries : ∀ {s : Session} (cells : List CellId), I s → I { s with temporaries := cells }

theorem Lasting.obtain (lasting : Lasting I) (o : Origin) {s : Session} (holds : I s) :
    I { s with store := (obtain o s.store).2 } := by
  cases o with
  | fresh h => exact lasting.hold h holds
  | shared c => exact lasting.retain c holds

mutual

theorem Lasting.mapState (lasting : Lasting I) : ∀ (v : Value Origin) {s : Session}, I s →
    I { s with store := (v.mapState Action.obtain s.store).2 }
  | .nil, _, holds | .bool _, _, holds | .int _, _, holds | .float _, _, holds | .str _, _, holds
  | .symbol _, _, holds => holds
  | .list items, _, holds => lasting.mapStateItems items holds
  | .record fields, _, holds => lasting.mapStateFields fields holds
  | .foreign o, _, holds => lasting.obtain o holds
  | .function o _, _, holds => lasting.obtain o holds

theorem Lasting.mapStateItems (lasting : Lasting I) : ∀ (items : List (Value Origin)) {s : Session}, I s →
    I { s with store := (Value.mapStateItems Action.obtain items s.store).2 }
  | [], _, holds => holds
  | v :: rest, _, holds => lasting.mapStateItems rest (lasting.mapState v holds)

theorem Lasting.mapStateFields (lasting : Lasting I) : ∀ (fields : List (String × Value Origin)) {s : Session}, I s →
    I { s with store := (Value.mapStateFields Action.obtain fields s.store).2 }
  | [], _, holds => holds
  | (_, v) :: rest, _, holds => lasting.mapStateFields rest (lasting.mapState v holds)

end

theorem keeps_value (lasting : Lasting I) (input : ValueInput) : Keeps I (value input) := by
  refine keeps_bind (keeps_resolve input) fun v => ?_
  refine keeps_bind (keeps_onStore fun s holds => lasting.mapState v holds) fun w => ?_
  exact keeps_bind (keeps_modify fun s holds => lasting.temporaries _ holds) fun _ => keeps_pure _

theorem keeps_datum (lasting : Lasting I) (input : DatumInput) : Keeps I (datum input) := by
  cases input with
  | plain data =>
    cases data with
    | host v => exact keeps_map _ (keeps_value lasting v)
    | _ => exact keeps_pure _
  | array items => exact keeps_map _ (keeps_mapM keeps_handle items)
  | dict pairs =>
    refine keeps_map _ (keeps_mapM (fun kv => ?_) pairs)
    exact keeps_bind (keeps_handle kv.1) fun _ => keeps_map _ (keeps_handle kv.2)

theorem keeps_function (lasting : Lasting I) (input : FunctionInput) : Keeps I (function input) := by
  cases input with
  | constant h => exact keeps_map _ (keeps_handle h)
  | making type fields => exact keeps_map _ (keeps_handle type)
  | copying data => exact keeps_bind (keeps_datum lasting data) fun _ => keeps_pure _
  | raiseThen data h => exact keeps_bind (keeps_datum lasting data) fun _ => keeps_map _ (keeps_handle h)
  | custom captured body => exact keeps_map _ (keeps_mapM keeps_lookup captured)
  | _ => exact keeps_pure _

theorem keeps_callable (lasting : Lasting I) (input : ValueInput) : Keeps I (callable input) := by
  refine keeps_bind (keeps_value lasting input) fun v => ?_
  split
  · exact keeps_pure _
  · exact keeps_throw _

theorem keeps_callInputs (lasting : Lasting I) (f : ValueInput) (args : List ValueInput) : Keeps I (callInputs f args) :=
  keeps_bind (keeps_callable lasting f) fun _ => keeps_map _ (keeps_mapM (keeps_value lasting) args)

end keeps

end Action

/-! ### Steps -/

/-- The result of a step in the variable that is named for it, or else among what the step still holds. -/
def deliver (target : Option String) (b : Binding) (s : Session) : Session :=
  match target with
  | some name => s.assign name b
  | none => { s with temporaries := s.temporaries ++ b.cells }

section steps

variable {s s' : Session} {st : Step}

theorem step_of_error {e : StepError} (failed : (Action.perform st).run s = (.error e, s')) (target : Option String) :
    s.step st target = (.error e, s'.endStep) := by
  unfold step
  rw [failed]

theorem step_of_ok {b : Binding} (performed : (Action.perform st).run s = (.ok b, s')) (target : Option String) :
    s.step st target = (.ok (b.toAnswer s'.store), (s'.deliver target b).endStep) := by
  unfold step
  rw [performed]
  rfl

/-- A step ends as its action does. What it still holds is released, and before that a result is delivered. -/
theorem step_cases (s : Session) (st : Step) (target : Option String) :
    (∃ e s', (Action.perform st).run s = (.error e, s') ∧ s.step st target = (.error e, s'.endStep)) ∨
    ∃ b s', (Action.perform st).run s = (.ok b, s') ∧
      s.step st target = (.ok (b.toAnswer s'.store), (s'.deliver target b).endStep) := by
  cases ran : (Action.perform st).run s with
  | mk outcome s' =>
    cases outcome with
    | error e => exact .inl ⟨e, s', rfl, step_of_error ran target⟩
    | ok b => exact .inr ⟨b, s', rfl, step_of_ok ran target⟩

end steps

end Session

end ForeignBridge
