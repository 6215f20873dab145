import ForeignBridge.Proofs.Actions
import ForeignBridge.Proofs.Registering

/-! # Steps that leave the bridge and the faults alone

Only four steps begin or end the registration of the bridge, and only five can raise a fault that nobody takes. Whatever
any other step does and however it ends, the bridge stands still and no fault appears (`steady_perform`). The phases of
a bridge and the faults that a run leaves behind are both derived from this, so that the steps are gone through once. -/

namespace ForeignBridge

namespace Store

variable {s t : Store}

theorem fault_describe (h : Handle) (s : Store) : (s.describe h).2.fault = s.fault := by
  unfold describe
  dsimp only
  split <;> rfl

end Store

namespace ConversionPolicy

open Store

theorem fault_place (data : Datum CellId) (s : Store) : (place Store.construct data s).2.fault = s.fault :=
  fault_of_protocol ((protocol_hold _ _).trans (protocol_allocate (.value data) s))

theorem conversionInvariant_fault (o : Multiset CellId) (fault : Option Handle) :
    ConversionInvariant o fun t _ => t.fault = fault where
  share same _ := same
  place same _ _ := (fault_place _ _).trans same
  release same := (fault_release _ _).trans same

theorem fault_toForeign (p : ConversionPolicy) (v : Value CellId) (s : Store) : (p.toForeign v s).2.fault = s.fault := by
  have leaves : Leaves (fun t _ => t.fault = s.fault) 0 (fun c => [c]) (p.toForeign v s) :=
    leaves_toForeignAt (conversionInvariant_fault v.references s.fault) p 0 v (fun _ hc => hc) rfl
  exact leaves

theorem fault_toForeignItems (p : ConversionPolicy) (items : List (Value CellId)) (s : Store) :
    (p.toForeignItems Store.construct 0 items s).2.fault = s.fault := by
  have leaves : Leaves (fun t _ => t.fault = s.fault) 0 id (p.toForeignItems Store.construct 0 items s) :=
    leaves_toForeignItems (conversionInvariant_fault (Value.referencesItems items) s.fault) p 0 items (fun _ hc => hc) rfl
  exact leaves

theorem fault_fromForeign (p : ConversionPolicy) (h : Handle) (s : Store) : (p.fromForeign h s).2.fault = s.fault := by
  have looks := looks_fromForeignWithin p (p.maxDepth + 1) h s
  unfold fromForeign
  generalize p.fromForeignWithin (p.maxDepth + 1) h s = result at looks ⊢
  cases looks with
  | ok v t looks => exact looks.fault
  | deep t looks => exact looks.fault

end ConversionPolicy

/-! ### The bridge -/

namespace Bridge

open Store

variable {s : Store}

theorem fault_enter (b : Bridge) (f : Callable) (args : List (Value CellId)) (s : Store) :
    (b.enter f args s).2.fault = s.fault := by
  unfold enter
  split
  · rfl
  · exact ConversionPolicy.fault_toForeignItems _ args s

/-- **A call leaves no fault**, whatever the function does and whether it is reached or not. -/
theorem fault_invoke (b : Bridge) (f : Callable) (args : List (Value CellId)) (clean : s.fault = none) :
    (b.invoke f args s).2.fault = none := by
  have entered := (b.fault_enter f args s).trans clean
  unfold invoke
  generalize b.enter f args s = result at entered ⊢
  obtain ⟨_ | held, t⟩ := result
  · exact entered
  · exact (b.checked_leave f.autoConvert held _ t).cleared

theorem fault_readField (b : Bridge) (v : Value CellId) (name : String) (autoConvert : Bool) (clean : s.fault = none) :
    (b.readField v name autoConvert s).2.fault = none := by
  unfold readField
  split
  · exact clean
  · exact (b.checked_leave autoConvert [] _ s).cleared

theorem fault_functionAt (path : String) (autoConvert : Bool) (s : Store) :
    (functionAt path autoConvert s).2.fault = s.fault := by
  unfold functionAt
  split
  · rfl
  · exact fault_hold s _

end Bridge

/-! ### Registration and direct calls -/

namespace Registry

open Store

variable {s : Store}

theorem fault_addFamily (t : Template) (r : Registry) (s : Store) : (r.addFamily t s).2.2.fault = s.fault := by
  have ways := r.adds t s
  generalize r.addFamily t s = result at ways ⊢
  cases ways with
  | hindered | extension => rfl
  | made => exact (fault_releaseAll _ _).trans (fault_of_protocol (protocol_holding _ _ s))

/-- **Registering a type leaves no fault.** -/
theorem fault_instantiate (t : TypeExpr) (r : Registry) (clean : s.fault = none) :
    (r.instantiate t s).2.2.fault = none := by
  rcases r.idle_or_checked_instantiate t s with ⟨_, same⟩ | ⟨_, _, _, _, checked⟩
  · rw [same]
    exact clean
  · exact checked.cleared

end Registry

namespace DirectCalls

open Store

theorem fault_add (r : Registry) (calls : DirectCalls) (s : Store) (spec : DirectCallSpec) :
    (add r (calls, s) spec).2.fault = s.fault := by
  unfold add bind
  dsimp only
  split
  · next call t found =>
    split at found
    · cases found
    · split at found
      · cases found
      · obtain ⟨_, rfl⟩ := Prod.mk.inj found
        exact (fault_releaseAll _ _).trans (fault_hold s _)
  · next e t failed =>
    split at failed
    · obtain ⟨_, rfl⟩ := Prod.mk.inj failed
      rfl
    · split at failed
      · obtain ⟨_, rfl⟩ := Prod.mk.inj failed
        rfl
      · cases failed

theorem fault_ofSpecs (r : Registry) (specs : List DirectCallSpec) (s : Store) :
    (ofSpecs r specs s).2.fault = s.fault :=
  apply_foldl fault (fun p spec => fault_add r p.1 p.2 spec) specs (empty, s)

/-- **A direct call leaves no fault.** -/
theorem fault_invoke (d : DirectCalls) (name : String) (b : Bridge) (r : Registry) (args : List (Value CellId))
    {s : Store} (clean : s.fault = none) : (d.invoke name b r args s).2.fault = none := by
  unfold invoke
  split
  · exact clean
  · next call _ =>
    have called := b.fault_invoke call.function args clean
    have ends := call.ends_invoke b r args s
    generalize call.invoke b r args s = result at ends ⊢
    cases ends with
    | refused => exact clean
    | failed _ ended | returned _ ended =>
      rw [ended] at called
      exact called
    | misfit _ ended =>
      rw [ended] at called
      exact (fault_releaseAll _ _).trans called

end DirectCalls

namespace Session

/-- The step is an operation of the bridge, of the registry or of the direct calls, or an operation of the foreign
store that raises no fault. The others raise one on purpose, or cross without a check. -/
def Step.isGuarded : Step → Bool
  | .raise _ | .raiseValue _ | .storeField _ _ | .storeCall _ _ | .applyFamily _ _ => false
  | _ => true

/-- The step begins or ends the registration of the bridge. -/
def Step.isRegistration : Step → Bool
  | .begin | .complete | .abandon | .register _ => true
  | _ => false

/-- From the first session to the second the bridge stands still, and no fault appears. -/
structure Steady (s s' : Session) : Prop where
  bridge : s'.bridge = s.bridge
  guard : s'.guard = s.guard
  fault : s.store.fault = none → s'.store.fault = none

theorem Steady.refl (s : Session) : Steady s s := ⟨rfl, rfl, id⟩

/-- What is done in the store alone may clear a fault, but not raise one. -/
theorem Steady.setStore {s s' : Session} {t : Store} (steady : Steady s s')
    (keeps : s'.store.fault = none → t.fault = none) : Steady s { s' with store := t } :=
  ⟨steady.bridge, steady.guard, fun clean => keeps (steady.fault clean)⟩

namespace Action

open Store

variable {α : Type} {s : Session}

/-! ### Actions -/

theorem lasting_steady : Lasting (Steady s) where
  hold {s'} h steady := steady.setStore (fault_hold s'.store h).trans
  retain _ steady := steady.setStore id
  temporaries _ steady := ⟨steady.bridge, steady.guard, steady.fault⟩

theorem steady_onStore {f : Store → α × Store} (keeps : ∀ t, t.fault = none → (f t).2.fault = none) :
    Keeps (Steady s) (onStore f) := fun s' steady => ensures_onStore (steady.setStore (keeps s'.store))

theorem steady_tryStore {ε : Type} {wrap : ε → StepError} {f : Store → Except ε α × Store}
    (keeps : ∀ t, t.fault = none → (f t).2.fault = none) : Keeps (Steady s) (tryStore wrap f) :=
  keeps_bind (steady_onStore keeps) fun _ => keeps_lift _ _

theorem steady_finished {f : Store → Store} (keeps : ∀ t, t.fault = none → (f t).fault = none) :
    Keeps (Steady s) (finished f) :=
  keeps_bind (steady_onStore keeps) fun _ => keeps_pure _

theorem steady_asHandle {f : Store → Handle × Store} (keeps : ∀ t, t.fault = none → (f t).2.fault = none) :
    Keeps (Steady s) (asHandle f) := keeps_map _ (steady_onStore keeps)

theorem steady_asCell {f : Store → CellId × Store} (keeps : ∀ t, t.fault = none → (f t).2.fault = none) :
    Keeps (Steady s) (asCell f) := keeps_map _ (steady_onStore keeps)

theorem steady_asValue {f : Store → Value CellId × Store} (keeps : ∀ t, t.fault = none → (f t).2.fault = none) :
    Keeps (Steady s) (asValue f) := keeps_map _ (steady_onStore keeps)

theorem steady_setRegistry (r : Registry) : Keeps (Steady s) (setRegistry r) :=
  keeps_modify fun s' steady =>
    ⟨steady.bridge, steady.guard, fun clean => (fault_releaseAll s'.registry.cells _).trans (steady.fault clean)⟩

theorem steady_setDirectCalls (specs : List DirectCallSpec) : Keeps (Steady s) (setDirectCalls specs) := by
  intro s' steady
  apply ensures_bind
  apply ensures_get
  apply ensures_set
  refine ⟨steady.bridge, steady.guard, fun clean => (fault_releaseAll s'.calls.cells _).trans ?_⟩
  exact (DirectCalls.fault_ofSpecs s'.registry specs s'.store).trans (steady.fault clean)

theorem steady_tryRegistry {f : Registry → Store → Except RegistrationError α × Registry × Store}
    (keeps : ∀ r t, t.fault = none → (f r t).2.2.fault = none) : Keeps (Steady s) (tryRegistry f) := by
  intro s' steady
  apply ensures_bind
  apply ensures_get
  apply ensures_bind
  apply ensures_set
  exact keeps_lift _ _ _ ⟨steady.bridge, steady.guard, fun clean => keeps s'.registry s'.store (steady.fault clean)⟩

/-! ### Steps -/

/-- **A step that raises no fault and neither begins nor ends registration is steady**, however it ends. -/
theorem steady_perform (st : Step) (guarded : st.isGuarded = true) (other : st.isRegistration = false) :
    Keeps (Steady s) (perform st) := by
  cases st with
  | raise | raiseValue | storeField | storeCall | applyFamily => cases guarded
  | begin | complete | abandon | register => cases other
  -- the foreign store
  | provideFamily name => exact steady_asHandle fun s clean => (fault_of_protocol (protocol_provideFamily name s)).trans clean
  | defineModule path => exact steady_asHandle fun s clean => (fault_of_protocol (protocol_defineModule path s)).trans clean
  | defineFunction path name input =>
    refine keeps_bind (keeps_function lasting_steady input) fun found => ?_
    exact steady_asHandle fun s clean => (fault_of_protocol (protocol_defineFunction path name _ _ s)).trans clean
  | defineGlobal path name data =>
    refine keeps_bind (keeps_datum lasting_steady data) fun data => ?_
    exact steady_asHandle fun s clean => (fault_of_protocol (protocol_defineGlobal path name data s)).trans clean
  | construct data =>
    refine keeps_bind (keeps_datum lasting_steady data) fun data => ?_
    exact steady_asHandle fun s clean => (fault_of_protocol (protocol_allocate (.value data) s)).trans clean
  | create type fields =>
    refine keeps_bind (keeps_handle type) fun type => ?_
    refine keeps_bind (keeps_mapM (fun field => keeps_map _ (keeps_datum lasting_steady field.2)) fields) fun fields => ?_
    exact steady_asHandle fun s clean => (fault_of_protocol (protocol_create type fields s)).trans clean
  | recordCalls => exact steady_finished fun _ clean => clean
  | callLog | slots | libraryVersion | family => exact keeps_asked _
  | root h => exact keeps_bind (keeps_handle h) fun h => steady_finished fun s clean => (fault_root s h).trans clean
  | unroot h => exact keeps_bind (keeps_handle h) fun h => steady_finished fun s clean => (fault_unroot s h).trans clean
  | rootCount h | isLive h | isCallable h | submodule h | member h =>
    exact keeps_bind (keeps_handle h) fun h => keeps_asked _
  | collect => exact keeps_map _ (steady_onStore fun s clean => (fault_of_protocol (protocol_collect s)).trans clean)
  | pendingFault => exact keeps_map _ (steady_onStore fun _ clean => clean)
  | clearFault => exact steady_finished fun _ _ => rfl
  | describe h =>
    refine keeps_bind (keeps_handle h) fun h => ?_
    exact keeps_map _ (steady_onStore fun s clean => (fault_describe h s).trans clean)
  | rootModule => exact keeps_pure _
  | inspect h =>
    refine keeps_bind (keeps_handle h) fun h => keeps_bind (steady_onStore fun s clean => ?_) fun _ => keeps_asked _
    exact (inspects_inspect h s).fault.trans clean
  | typeOf h => exact keeps_bind (keeps_handle h) fun h => keeps_map _ (keeps_ask _)
  -- crossings
  | takeFault =>
    refine keeps_bind (steady_tryStore fun s clean => ?_) fun _ => keeps_pure _
    rw [takeFault_of_none clean]
    exact clean
  | guardedCall h args =>
    refine keeps_bind (keeps_callHandles h args) fun inputs => keeps_map _ (steady_tryStore fun s _ => ?_)
    exact (checked_crossing _ s).cleared
  | guardedApply h params =>
    refine keeps_bind (keeps_handle h) fun head => keeps_bind (keeps_mapM keeps_handle params) fun params => ?_
    exact keeps_map _ (steady_tryStore fun s _ => (checked_crossing _ s).cleared)
  -- the bridge
  | phase | policy | report => exact keeps_map _ keeps_get
  | holdObject h | newBound h | holdCell h | holdFunction h =>
    refine keeps_bind (keeps_handle h) fun h => ?_
    exact keeps_map _ (steady_onStore fun s clean => (fault_hold s h).trans clean)
  | box v =>
    refine keeps_bind (keeps_value lasting_steady v) fun v => ?_
    exact steady_asCell fun s clean => (ConversionPolicy.fault_place (.host v) s).trans clean
  | resolveModule path =>
    exact keeps_bind (keeps_ask _) fun found => keeps_map _ (keeps_lift _ _)
  | resolveMember module name =>
    refine keeps_bind (keeps_lookup module) fun b => ?_
    split
    · refine keeps_bind (keeps_ask _) fun found => keeps_bind (keeps_lift _ _) fun h => ?_
      exact steady_asCell fun s clean => (fault_hold s h).trans clean
    · exact keeps_throw _
  | functionAt path auto =>
    exact keeps_map _ (steady_tryStore fun s clean => (Bridge.fault_functionAt path auto s).trans clean)
  | invoke f args =>
    refine keeps_bind (keeps_callInputs lasting_steady f args) fun inputs => keeps_bind keeps_get fun s => ?_
    exact keeps_map _ (steady_tryStore fun t clean => s.bridge.fault_invoke inputs.1 inputs.2 clean)
  | readField v name auto =>
    refine keeps_bind (keeps_value lasting_steady v) fun v => keeps_bind keeps_get fun s => ?_
    exact keeps_map _ (steady_tryStore fun t clean => s.bridge.fault_readField v name auto clean)
  | toForeign v policy =>
    refine keeps_bind (keeps_value lasting_steady v) fun v => keeps_bind keeps_get fun s => ?_
    refine keeps_map _ (steady_tryStore fun t clean => ?_)
    exact (ConversionPolicy.fault_toForeign _ v t).trans clean
  | fromForeign h policy =>
    refine keeps_bind (keeps_handle h) fun h => keeps_bind keeps_get fun s => ?_
    refine keeps_map _ (steady_tryStore fun t clean => ?_)
    exact (ConversionPolicy.fault_fromForeign _ h t).trans clean
  -- cells and values
  | newCell => exact steady_asCell fun _ clean => clean
  | bind name h =>
    refine keeps_bind (keeps_cellOf name) fun c => keeps_bind (keeps_handle h) fun h => ?_
    refine keeps_bind (steady_tryStore fun s clean => ?_) fun _ => keeps_pure _
    cases bound : s.bind c h with
    | ok t => exact (fault_of_protocol (protocol_bind bound)).trans clean
    | error existing => exact clean
  | read name => exact keeps_bind (keeps_cellOf name) fun _ => keeps_asked _
  | sameCell a b => exact keeps_bind (keeps_cellOf a) fun _ => keeps_map _ (keeps_cellOf b)
  | value v =>
    refine keeps_bind (keeps_value lasting_steady v) fun v => ?_
    exact steady_asValue fun s clean => (fault_retainAll v.references s).trans clean
  | copy name =>
    refine keeps_bind (keeps_lookup name) fun b => keeps_bind (steady_onStore fun s clean => ?_) fun _ => keeps_pure _
    exact (fault_retainAll b.cells s).trans clean
  | drop name =>
    refine keeps_bind (keeps_modify fun s' steady => ?_) fun _ => keeps_pure _
    refine ⟨steady.bridge, steady.guard, fun clean => ?_⟩
    exact (fault_releaseAll (s'.heldBy name) s'.store).trans (steady.fault clean)
  | describeValue v => exact keeps_bind (keeps_value lasting_steady v) fun _ => keeps_asked _
  | sameValue a b =>
    refine keeps_bind (keeps_value lasting_steady a) fun _ => ?_
    exact keeps_bind (keeps_value lasting_steady b) fun _ => keeps_asked _
  -- registration and direct calls
  | newRegistry => exact keeps_bind (steady_setRegistry _) fun _ => keeps_pure _
  | addFamily t =>
    refine keeps_bind (steady_tryRegistry fun r s clean => ?_) fun _ => keeps_pure _
    exact (Registry.fault_addFamily t r s).trans clean
  | instantiate text =>
    refine keeps_bind (keeps_typeExpr text) fun t => keeps_map _ (steady_tryRegistry fun r s clean => ?_)
    exact Registry.fault_instantiate t r clean
  | lookupType text =>
    exact keeps_bind (keeps_typeExpr text) fun t => keeps_bind keeps_get fun s => keeps_asked _
  | hostType h => exact keeps_bind (keeps_handle h) fun h => keeps_map _ keeps_get
  | typeOfValue v =>
    exact keeps_bind (keeps_value lasting_steady v) fun v => keeps_bind keeps_get fun s => keeps_map _ (keeps_lift _ _)
  | registeredFamily | registry => exact keeps_map _ keeps_get
  | bindDirectCalls inputs =>
    refine keeps_bind (keeps_mapM keeps_directCallSpec inputs) fun specs => ?_
    exact keeps_bind (steady_setDirectCalls specs) fun _ => keeps_map _ keeps_directCallsView
  | directCalls => exact keeps_map _ keeps_directCallsView
  | includeDirectCalls =>
    refine keeps_bind (keeps_modify fun _ steady => ?_) fun _ => keeps_map _ keeps_get
    exact ⟨steady.bridge, steady.guard, steady.fault⟩
  | directCall name args =>
    refine keeps_bind (keeps_mapM (keeps_value lasting_steady) args) fun args => keeps_bind keeps_get fun s => ?_
    exact keeps_map _ (steady_tryStore fun t clean => s.calls.fault_invoke name s.bridge s.registry args clean)

end Action

end Session

end ForeignBridge
