import ForeignBridge.Proofs.Encodings
import ForeignBridge.Proofs.Registrations

/-! # The signatures of direct calls

A value fits a declared type if that is its registered type, or if the declared type is named `Any`. A direct call goes
to the foreign runtime exactly if all its arguments fit, one for each parameter; otherwise nothing has happened at all.
What it hands back fits the declared result (`DirectCall.invoke_checked`).

Whether a direct call is bound depends on its own declaration, the registry and the namespaces, and on no other
declaration (`DirectCalls.Settles`, kept by each declaration that is added). The wild card is known by its name alone, so
a type that is named `Any` and has parameters is let in as well, whatever these are (`DirectCalls.ofSpecs_binds`). -/

namespace ForeignBridge

/-! ### Checking values -/

/-- The value may stand where a type is declared. -/
def Registry.Fits (r : Registry) (s : Store) (expected : TypeExpr) (v : Value CellId) : Prop :=
  expected.name = "Any" ∨ r.typeOfValue s v = .ok expected

instance (r : Registry) (s : Store) (expected : TypeExpr) (v : Value CellId) : Decidable (r.Fits s expected v) :=
  inferInstanceAs (Decidable (_ ∨ _))

/-- The place of the value that a refusal is about. -/
def CallRefusal.place? : CallRefusal → Option Position
  | .untyped place _ _ => some place
  | .wrongType place _ _ => some place
  | _ => none

namespace DirectCall

variable {c : DirectCall} {r : Registry} {s : Store}

theorem isAny_iff {t : TypeExpr} : isAny t = true ↔ t.name = "Any" := by simp [isAny]

theorem check_cases (c : DirectCall) (r : Registry) (s : Store) (place : Position) (expected : TypeExpr)
    (v : Value CellId) : r.Fits s expected v ∧ c.check r s place expected v = .ok () ∨
      ¬ r.Fits s expected v ∧
        ∃ cause, c.check r s place expected v = .error (.directCall c.name cause) ∧ cause.place? = some place := by
  unfold check Registry.Fits
  by_cases wild : expected.name = "Any"
  · exact .inl ⟨.inl wild, if_pos (isAny_iff.mpr wild)⟩
  · rw [if_neg (mt isAny_iff.mp wild)]
    cases typed : r.typeOfValue s v with
    | error e => exact .inr ⟨by simp [wild], _, rfl, rfl⟩
    | ok found =>
      by_cases same : found = expected
      · exact .inl ⟨.inr (same ▸ rfl), if_pos same⟩
      · exact .inr ⟨by simp [wild, same], _, if_neg same, rfl⟩

/-- The place `i` is the first at which an argument does not fit. -/
structure FirstMisfit (r : Registry) (s : Store) (params : List TypeExpr) (args : List (Value CellId)) (i : ℕ) :
    Prop where
  before : List.Forall₂ (r.Fits s) (params.take i) (args.take i)
  here : ∃ expected v, params[i]? = some expected ∧ args[i]? = some v ∧ ¬ r.Fits s expected v

theorem FirstMisfit.tail {expected : TypeExpr} {v : Value CellId} {params : List TypeExpr}
    {args : List (Value CellId)} {i : ℕ} (fits : r.Fits s expected v) (first : FirstMisfit r s params args i) :
    FirstMisfit r s (expected :: params) (v :: args) (i + 1) :=
  ⟨.cons fits first.before, first.here⟩

/-- The arguments are checked from left to right, and the first that does not fit is named. -/
theorem checkArguments_cases (c : DirectCall) (r : Registry) (s : Store) :
    ∀ (index : ℕ) (params : List TypeExpr) (args : List (Value CellId)), args.length = params.length →
    List.Forall₂ (r.Fits s) params args ∧ c.checkArguments r s index params args = .ok () ∨
      ¬ List.Forall₂ (r.Fits s) params args ∧
        ∃ i cause, c.checkArguments r s index params args = .error (.directCall c.name cause) ∧
          cause.place? = some (.argument (index + i)) ∧ FirstMisfit r s params args i
  | index, [], [], _ => .inl ⟨.nil, rfl⟩
  | index, expected :: params, v :: args, same => by
    unfold checkArguments
    rcases c.check_cases r s (.argument index) expected v with ⟨fits, ok⟩ | ⟨misfit, cause, refused, place⟩
    · rw [ok, List.forall₂_cons]
      rcases checkArguments_cases c r s (index + 1) params args (Nat.succ.inj same) with ⟨all, ok⟩ | ⟨not, i, cause, rest⟩
      · exact .inl ⟨⟨fits, all⟩, ok⟩
      · obtain ⟨refused, place, first⟩ := rest
        have shifted : index + 1 + i = index + (i + 1) := by omega
        exact .inr ⟨fun all => not all.2, i + 1, cause, refused, shifted ▸ place, first.tail fits⟩
    · rw [refused, List.forall₂_cons]
      exact .inr ⟨fun all => misfit all.1, 0, cause, rfl, place, .nil, expected, v, rfl, rfl, misfit⟩

/-- Why a call is refused before it crosses: there are too many or too few arguments, or one does not fit. -/
inductive Refused (c : DirectCall) (r : Registry) (s : Store) (args : List (Value CellId)) : CallRefusal → Prop where
  | count (differs : args.length ≠ c.params.length) : Refused c r s args (.argumentCount c.params.length args.length)
  | argument (i : ℕ) (cause : CallRefusal) (same : args.length = c.params.length)
      (place : cause.place? = some (.argument i)) (first : FirstMisfit r s c.params args i) : Refused c r s args cause

theorem accepts_cases (c : DirectCall) (r : Registry) (s : Store) (args : List (Value CellId)) :
    List.Forall₂ (r.Fits s) c.params args ∧ c.accepts r s args = .ok () ∨
      ¬ List.Forall₂ (r.Fits s) c.params args ∧
        ∃ cause, c.accepts r s args = .error (.directCall c.name cause) ∧ Refused c r s args cause := by
  unfold accepts
  by_cases same : args.length = c.params.length
  · rw [if_neg (not_not.mpr same)]
    rcases c.checkArguments_cases r s 0 c.params args same with fits | ⟨not, i, cause, refused, place, first⟩
    · exact .inl fits
    · exact .inr ⟨not, cause, refused, .argument i cause same (by rwa [Nat.zero_add] at place) first⟩
  · rw [if_pos same]
    exact .inr ⟨fun all => same all.length_eq.symm, _, rfl, .count same⟩

/-- What becomes of the answer of the foreign runtime. -/
def delivered (c : DirectCall) (r : Registry) : Except BridgeError (Value CellId) × Store →
    Except RegistrationError (Value CellId) × Store
  | (.error e, s) => (.error (.bridge e), s)
  | (.ok v, s) =>
    match c.returns with
    | none => (.ok v, s)
    | some expected =>
      match c.check r s .result expected v with
      | .ok () => (.ok v, s)
      | .error e => (.error e, s.releaseAll v.references)

theorem invoke_eq (c : DirectCall) (b : Bridge) (r : Registry) (args : List (Value CellId)) (s : Store) :
    c.invoke b r args s =
      match c.accepts r s args with
      | .error e => (.error e, s)
      | .ok () => c.delivered r (b.invoke c.function args s) := by
  unfold invoke delivered
  cases c.accepts r s args <;> rfl

theorem delivered_ok (c : DirectCall) (r : Registry) (v : Value CellId) (t : Store) :
    ((∀ expected ∈ c.returns, r.Fits t expected v) → c.delivered r (.ok v, t) = (.ok v, t)) ∧
    ((∃ expected ∈ c.returns, ¬ r.Fits t expected v) →
      ∃ cause, c.delivered r (.ok v, t) = (.error (.directCall c.name cause), t.releaseAll v.references) ∧
        cause.place? = some .result) := by
  unfold delivered
  cases c.returns with
  | none => simp
  | some expected =>
    simp only [Option.mem_def, Option.some.injEq, forall_eq', exists_eq_left']
    rcases c.check_cases r t .result expected v with ⟨fits, ok⟩ | ⟨misfit, cause, refused, place⟩
    · rw [ok]
      exact ⟨fun _ => rfl, fun misfit => absurd fits misfit⟩
    · rw [refused]
      exact ⟨fun fits => absurd fits misfit, fun _ => ⟨cause, rfl, place⟩⟩

theorem fits_of_delivered {answer : Except BridgeError (Value CellId) × Store} {v : Value CellId} {t : Store}
    (outcome : c.delivered r answer = (.ok v, t)) : ∀ expected ∈ c.returns, r.Fits t expected v := by
  obtain ⟨e | found, u⟩ := answer
  · cases outcome
  · obtain ⟨kept, refused⟩ := c.delivered_ok r found u
    by_cases fits : ∀ expected ∈ c.returns, r.Fits u expected found
    · cases (kept fits).symm.trans outcome
      exact fits
    · push Not at fits
      obtain ⟨cause, result, -⟩ := refused fits
      cases result.symm.trans outcome

/-- **A direct call is checked on both sides.** If there are too many or too few arguments or one does not fit, the call
is refused, the refusal names the first argument that does not fit, and the store is as it was. Otherwise one call of the
function with these arguments decides: its failure is handed on, and so is its result if it fits the declared one;
else the result is given up and the call refused. So a result has the declared type. -/
theorem invoke_checked (c : DirectCall) (b : Bridge) (r : Registry) (args : List (Value CellId)) (s : Store) :
    (¬ List.Forall₂ (r.Fits s) c.params args →
      ∃ cause, c.invoke b r args s = (.error (.directCall c.name cause), s) ∧ Refused c r s args cause) ∧
    (List.Forall₂ (r.Fits s) c.params args →
      (∀ e t, b.invoke c.function args s = (.error e, t) → c.invoke b r args s = (.error (.bridge e), t)) ∧
      (∀ v t, b.invoke c.function args s = (.ok v, t) →
        ((∀ expected ∈ c.returns, r.Fits t expected v) → c.invoke b r args s = (.ok v, t)) ∧
        ((∃ expected ∈ c.returns, ¬ r.Fits t expected v) →
          ∃ cause, c.invoke b r args s = (.error (.directCall c.name cause), t.releaseAll v.references) ∧
            cause.place? = some .result))) ∧
    (∀ v t, c.invoke b r args s = (.ok v, t) →
      ∀ expected ∈ c.returns, expected.name ≠ "Any" → r.typeOfValue t v = .ok expected) := by
  rcases c.accepts_cases r s args with ⟨fits, accepted⟩ | ⟨misfit, cause, refused, why⟩
  · have crossed : c.invoke b r args s = c.delivered r (b.invoke c.function args s) := by
      rw [invoke_eq, accepted]
    refine ⟨fun misfit => absurd fits misfit, fun _ => ⟨fun e t failed => ?_, fun v t answered => ?_⟩,
      fun v t outcome expected declared notAny => ?_⟩
    · rw [crossed, failed, delivered]
    · rw [crossed, answered]
      exact c.delivered_ok r v t
    · rw [crossed] at outcome
      exact (c.fits_of_delivered outcome expected declared).resolve_left notAny
  · have unchanged : c.invoke b r args s = (.error (.directCall c.name cause), s) := by
      rw [invoke_eq, refused]
    refine ⟨fun _ => ⟨cause, unchanged, why⟩, fun fits => absurd fits misfit, fun v t outcome => ?_⟩
    rw [unchanged] at outcome
    cases outcome

/-- The identity under `Int → String`: a text does not go in, and a number does not come out. -/
theorem invoke_checked_identity :
    let made := (Store.ofVersion (.ofNumbers 1 0 0)).defineFunction "" "same" [] fun args => .done (args.headD .null)
    let held := made.2.hold made.1
    let c : DirectCall := ⟨"f", ⟨held.1, true⟩, [.concrete "Int"], some (.concrete "String")⟩
    let b : Bridge := ⟨.full, .ready⟩
    let types : List TypeExpr := [.concrete "Int", .concrete "String"]
    let r : Registry := ⟨[], [(.concrete "Int", ⟨0⟩), (.concrete "String", ⟨1⟩)], [], types⟩
    (∃ cause, c.invoke b r [.str "x"] held.2 = (.error (.directCall "f" cause), held.2)) ∧
    ∃ cause t, c.invoke b r [.int 3] held.2 = (.error (.directCall "f" cause), t) ∧ cause.place? = some .result := by
  intro made held c b types r
  have text : ¬ List.Forall₂ (r.Fits held.2) c.params [.str "x"] := by decide +kernel
  have number : List.Forall₂ (r.Fits held.2) c.params [.int 3] := by decide +kernel
  have handed : (b.invoke c.function [.int 3] held.2).1 = .ok (.int 3) := by cbv
  generalize crossed : b.invoke c.function [.int 3] held.2 = answer at handed
  obtain ⟨found, t⟩ := answer
  obtain rfl : found = .ok (.int 3) := handed
  have result : ¬ r.Fits t (.concrete "String") (.int 3) := by
    have typed : r.typeOfValue t (.int 3) = .ok (.concrete "Int") := rfl
    rw [Registry.Fits, typed]
    decide
  obtain ⟨cause, refused, -⟩ := (invoke_checked c b r [.str "x"] held.2).1 text
  obtain ⟨cause', refused', place⟩ :=
    (((invoke_checked c b r [.int 3] held.2).2.1 number).2 _ t crossed).2 ⟨_, rfl, result⟩
  exact ⟨⟨cause, refused⟩, cause', _, refused', place⟩

end DirectCall

/-! ### Binding -/

namespace Store

variable {s t : Store}

/-- What a path leads to is a matter of the objects. -/
theorem member?_congr (same : ∀ h, t.object? h = s.object? h) (parent : Handle) (name : String) :
    t.member? parent name = s.member? parent name := by rw [member?, member?, same]

theorem walk_congr (same : ∀ h, t.object? h = s.object? h) : ∀ (parent : Handle) (parts : List String),
    t.walk parent parts = s.walk parent parts
  | _, [] => rfl
  | parent, name :: rest => by
    have modules : t.isModule = s.isModule := funext fun h => by rw [isModule, isModule, same]
    unfold walk
    rw [submodule?, submodule?, member?_congr same, modules]
    simp only [walk_congr same _ rest]

theorem resolveFunction_congr (same : ∀ h, t.object? h = s.object? h) (path : String) :
    t.resolveFunction path = s.resolveFunction path := by
  unfold resolveFunction resolveModule resolveMember
  simp only [walk_congr same, member?_congr same, same]

end Store

/-- The types that a declaration names. -/
def DirectCallSpec.types (spec : DirectCallSpec) : List TypeExpr := spec.params ++ spec.returns.toList

namespace DirectCalls

variable {r : Registry} {s t : Store} {spec : DirectCallSpec}

/-- Why a declaration is not bound. -/
def obstacle? (r : Registry) (s : Store) (spec : DirectCallSpec) : Option RegistrationError :=
  match unregistered? r spec with
  | some missing => some (.unregisteredParameter spec.name missing)
  | none =>
    match s.resolveFunction spec.function with
    | .error e => some (.bridge e)
    | .ok _ => none

theorem obstacle?_congr (same : ∀ h, t.object? h = s.object? h) (spec : DirectCallSpec) :
    obstacle? r t spec = obstacle? r s spec := by
  unfold obstacle?
  rw [Store.resolveFunction_congr same]

/-- The call is the declaration with a cell for its function. -/
structure Binds (s t : Store) (spec : DirectCallSpec) (call : DirectCall) : Prop where
  name : call.name = spec.name
  params : call.params = spec.params
  returns : call.returns = spec.returns
  autoConvert : call.function.autoConvert = spec.autoConvert
  function : ∃ h, s.resolveFunction spec.function = .ok h ∧ t.binding? call.function.cell = some h

theorem Binds.later {w : Store} {call : DirectCall} (binds : Binds s t spec call) (keeps : t.Keeps w) :
    Binds s w spec call where
  __ := binds
  function := by
    obtain ⟨h, found, bound⟩ := binds.function
    obtain ⟨cell, there⟩ := Store.cell?_of_binding? bound
    exact ⟨h, found, (keeps.binding _ (Store.lt_of_cell? there.1)).trans bound⟩

theorem bind_cases (r : Registry) (s : Store) (spec : DirectCallSpec) :
    (∃ e, obstacle? r s spec = some e ∧ bind r spec s = (.error e, s)) ∨
      obstacle? r s spec = none ∧
      ∃ call h, bind r spec s = (.ok call, (s.hold h).2) ∧ Binds s (s.hold h).2 spec call := by
  unfold obstacle? bind
  cases unregistered? r spec with
  | some missing => exact .inl ⟨_, rfl, rfl⟩
  | none =>
    cases found : s.resolveFunction spec.function with
    | error e => exact .inl ⟨_, rfl, rfl⟩
    | ok h => exact .inr ⟨rfl, _, h, rfl, rfl, rfl, rfl, rfl, h, found, s.binding?_hold_self h⟩

/-- The failure of a declaration that is not bound. -/
def failure? (r : Registry) (s : Store) (spec : DirectCallSpec) : Option Failure :=
  (obstacle? r s spec).map (⟨.directCall, spec.name, ·⟩)

/-- Where binding declarations leads: every one is settled as if it were alone. -/
structure Settles (r : Registry) (s : Store) (specs : List DirectCallSpec) (calls : DirectCalls) (t : Store) : Prop where
  objects : ∀ h, t.object? h = s.object? h
  failures : calls.failures = specs.filterMap (failure? r s)
  bound : ∀ name call, calls.calls.get? name = some call →
    ∃ spec ∈ specs, spec.name = name ∧ obstacle? r s spec = none ∧ Binds s t spec call
  all : ∀ spec ∈ specs, obstacle? r s spec = none → (calls.calls.get? spec.name).isSome

theorem settles_empty (r : Registry) (s : Store) : Settles r s [] empty s where
  objects _ := rfl
  failures := rfl
  bound _ _ found := by cases found
  all _ impossible := by cases impossible

theorem Settles.absent {specs : List DirectCallSpec} {calls : DirectCalls} (settles : Settles r s specs calls t)
    {name : String} (new : ∀ spec ∈ specs, spec.name ≠ name) : calls.calls.get? name = none := by
  cases found : calls.calls.get? name with
  | none => rfl
  | some call =>
    obtain ⟨spec, declared, same, -⟩ := settles.bound name call found
    exact absurd same (new spec declared)

theorem Settles.add {specs : List DirectCallSpec} {calls : DirectCalls} (settles : Settles r s specs calls t)
    (new : ∀ other ∈ specs, other.name ≠ spec.name) :
    Settles r s (specs ++ [spec]) (DirectCalls.add r (calls, t) spec).1 (DirectCalls.add r (calls, t) spec).2 := by
  have stands : obstacle? r t spec = obstacle? r s spec := obstacle?_congr settles.objects spec
  have path := Store.resolveFunction_congr settles.objects spec.function
  unfold DirectCalls.add
  rcases bind_cases r t spec with ⟨e, obstacle, refused⟩ | ⟨free, call, h, made, binds⟩
  · have failure : failure? r s spec = some ⟨.directCall, spec.name, e⟩ := by rw [failure?, ← stands, obstacle]; rfl
    simp only [refused]
    refine ⟨settles.objects, ?_, fun name call found => ?_, fun other declared free => ?_⟩
    · rw [List.filterMap_append, settles.failures, List.filterMap_cons_some failure, List.filterMap_nil]
    · obtain ⟨other, declared, rest⟩ := settles.bound name call found
      exact ⟨other, List.mem_append_left _ declared, rest⟩
    · rcases List.mem_append.mp declared with before | last
      · exact settles.all other before free
      · obtain rfl := List.mem_singleton.mp last
        rw [← stands, obstacle] at free
        cases free
  · have failure : failure? r s spec = none := by rw [failure?, ← stands, free]; rfl
    -- No call of that name was there, so none is displaced.
    simp only [made, settles.absent new, Option.toList_none, List.map_nil, Store.releaseAll, List.foldl_nil]
    refine ⟨fun k => (Store.object?_hold t h k).trans (settles.objects k), ?_, fun name found held => ?_,
      fun other declared free => ?_⟩
    · rw [List.filterMap_append, settles.failures, List.filterMap_cons_none failure, List.filterMap_nil, List.append_nil]
    · rw [Keyed.get?_insert] at held
      split at held
      · next same =>
        obtain rfl := Option.some.inj held
        obtain ⟨k, resolved, bound⟩ := binds.function
        exact ⟨spec, List.mem_append_right _ List.mem_cons_self, same.symm, stands ▸ free,
          { binds with function := ⟨k, path ▸ resolved, bound⟩ }⟩
      · obtain ⟨other, declared, same, free, before⟩ := settles.bound name found held
        exact ⟨other, List.mem_append_left _ declared, same, free, before.later (Store.keeps_hold t h)⟩
    · rw [Keyed.get?_insert]
      split
      · rfl
      · next other' =>
        rcases List.mem_append.mp declared with before | last
        · exact settles.all other before free
        · exact absurd (congrArg DirectCallSpec.name (List.mem_singleton.mp last)) other'

/-- Declarations of different names do not affect one another. -/
theorem settles_ofSpecs (r : Registry) (s : Store) (specs : List DirectCallSpec)
    (distinct : (specs.map DirectCallSpec.name).Nodup) :
    Settles r s specs (ofSpecs r specs s).1 (ofSpecs r specs s).2 := by
  induction specs using List.reverseRecOn with
  | nil => exact settles_empty r s
  | append_singleton specs spec ih =>
    rw [List.map_append, List.nodup_append] at distinct
    obtain ⟨before, -, apart⟩ := distinct
    have step : ofSpecs r (specs ++ [spec]) s = DirectCalls.add r (ofSpecs r specs s) spec := by
      rw [ofSpecs, List.foldl_append]
      rfl
    rw [step]
    exact (ih before).add fun other declared =>
      apart _ (List.mem_map_of_mem declared) _ (List.mem_map_of_mem List.mem_cons_self)

/-- Every declared type is registered or named `Any`, and the path is that of a function in a namespace. -/
structure Bindable (r : Registry) (s : Store) (spec : DirectCallSpec) : Prop where
  types : ∀ e ∈ spec.types, e.name = "Any" ∨ r.isRegistered e = true
  function : ∃ m h, s.resolveModule (Store.splitPath spec.function).1 = .ok m ∧
    s.member? m.handle (Store.splitPath spec.function).2 = some h ∧ s.isCallable h = true

theorem unregistered?_eq_none_iff :
    unregistered? r spec = none ↔ ∀ e ∈ spec.types, e.name = "Any" ∨ r.isRegistered e = true := by
  rw [unregistered?, List.find?_eq_none]
  refine forall₂_congr fun e _ => ?_
  rw [Bool.and_eq_true, Bool.not_eq_true', Bool.not_eq_true', not_and, Bool.not_eq_false, ← DirectCall.isAny_iff]
  cases DirectCall.isAny e <;> simp

theorem isCallable_iff {h : Handle} :
    s.isCallable h = true ↔ ∃ own captured body, s.object? h = some (.function own captured body) := by
  unfold Store.isCallable
  split
  · next own captured body found => exact ⟨fun _ => ⟨own, captured, body, found⟩, fun _ => rfl⟩
  · next other =>
    exact iff_of_false Bool.false_ne_true fun ⟨own, captured, body, found⟩ => other own captured body found

theorem obstacle?_eq_none_iff : obstacle? r s spec = none ↔ Bindable r s spec := by
  have path : (∃ h, s.resolveFunction spec.function = .ok h) ↔ ∃ m h,
      s.resolveModule (Store.splitPath spec.function).1 = .ok m ∧
        s.member? m.handle (Store.splitPath spec.function).2 = some h ∧ s.isCallable h = true := by
    simp only [Store.resolveFunction_eq_ok, isCallable_iff]
    exact exists_comm
  unfold obstacle?
  cases found : unregistered? r spec with
  | some missing =>
    refine iff_of_false (by simp) fun bindable => ?_
    rw [unregistered?_eq_none_iff.mpr bindable.types] at found
    cases found
  | none =>
    cases resolved : s.resolveFunction spec.function with
    | error e =>
      refine iff_of_false (by simp) fun bindable => ?_
      obtain ⟨h, ok⟩ := path.mpr bindable.function
      cases resolved.symm.trans ok
    | ok h => exact iff_of_true rfl ⟨unregistered?_eq_none_iff.mp found, path.mp ⟨h, resolved⟩⟩

theorem filterMap_failure? {specs : List DirectCallSpec} (distinct : (specs.map DirectCallSpec.name).Nodup)
    (declared : spec ∈ specs) : (specs.filterMap (failure? r s)).filter (·.subject == spec.name) =
      (failure? r s spec).toList := by
  have alone : specs.filter (·.name == spec.name) = [spec] := by
    have same : specs.filter (·.name == spec.name) = specs.filter (· == spec) := by
      refine List.filter_congr fun other there => ?_
      rw [Bool.eq_iff_iff, beq_iff_eq, beq_iff_eq]
      exact ⟨fun name => List.inj_on_of_nodup_map distinct there declared name, congrArg DirectCallSpec.name⟩
    rw [same, List.filter_beq, List.count_eq_one_of_mem (.of_map _ distinct) declared, List.replicate_one]
  have subject : ∀ other, (failure? r s other).filter (·.subject == spec.name) =
      if (other.name == spec.name) = true then failure? r s other else none := by
    intro other
    unfold failure?
    cases obstacle? r s other with
    | none => simp
    | some e => simp [Option.filter]
  rw [List.filter_filterMap, funext subject, ← List.filterMap_filter, alone, List.filterMap_cons, List.filterMap_nil]
  cases failure? r s spec <;> rfl

/-- **Declarations are bound one by one.** Each of a list of declarations with different names is either bound, to a
call with its signature and the function at its path, or it is the subject of one failure, which is the failure of the
declaration alone in the store before. It is bound if all the types it declares are registered or named `Any` and its
path is that of a function in a namespace that exists, and not else. So the types of a bound call are `Any` or
registered, except for types that are named `Any` and have parameters. -/
theorem ofSpecs_binds (r : Registry) (specs : List DirectCallSpec) (s : Store)
    (distinct : (specs.map DirectCallSpec.name).Nodup) :
    let made := ofSpecs r specs s
    (∀ spec ∈ specs,
      (Bindable r s spec ∧ spec.name ∉ made.1.unbound ∧
        ∃ call, made.1.calls.get? spec.name = some call ∧ Binds s made.2 spec call) ∨
      (¬ Bindable r s spec ∧ made.1.calls.get? spec.name = none ∧
        ∃ e, bind r spec s = (.error e, s) ∧
          made.1.failures.filter (·.subject == spec.name) = [⟨.directCall, spec.name, e⟩])) ∧
    (∀ name call, made.1.calls.get? name = some call → (∃ spec ∈ specs, spec.name = name) ∧
      ∀ e ∈ call.params ++ call.returns.toList, (e.name = "Any" → e.params = []) →
        e = .concrete "Any" ∨ r.isRegistered e = true) ∧
    ∀ failure ∈ made.1.failures, ∃ spec ∈ specs, spec.name = failure.subject := by
  intro made
  have settles : Settles r s specs made.1 made.2 := settles_ofSpecs r s specs distinct
  have unique : ∀ spec ∈ specs, ∀ call, made.1.calls.get? spec.name = some call →
      obstacle? r s spec = none ∧ Binds s made.2 spec call := by
    intro spec declared call found
    obtain ⟨other, there, same, bound⟩ := settles.bound _ _ found
    exact List.inj_on_of_nodup_map distinct there declared same ▸ bound
  refine ⟨fun spec declared => ?_, fun name call found => ?_, fun failure recorded => ?_⟩
  · have failures := filterMap_failure? (r := r) (s := s) distinct declared
    rw [← settles.failures] at failures
    rcases bind_cases r s spec with ⟨e, obstacle, refused⟩ | ⟨free, -⟩
    · refine .inr ⟨mt obstacle?_eq_none_iff.mpr (by simp [obstacle]), ?_, e, refused, ?_⟩
      · rw [Option.eq_none_iff_forall_ne_some]
        intro call found
        rw [(unique spec declared call found).1] at obstacle
        cases obstacle
      · rw [failures, failure?, obstacle]
        rfl
    · refine .inl ⟨obstacle?_eq_none_iff.mp free, fun recorded => ?_, ?_⟩
      · obtain ⟨failure, there, subject⟩ := List.mem_map.mp recorded
        have kept : failure ∈ made.1.failures.filter (·.subject == spec.name) :=
          List.mem_filter.mpr ⟨there, beq_iff_eq.mpr subject⟩
        rw [failures, failure?, free] at kept
        cases kept
      · obtain ⟨call, found⟩ := Option.isSome_iff_exists.mp (settles.all spec declared free)
        exact ⟨call, found, (unique spec declared call found).2⟩
  · obtain ⟨spec, declared, same, free, binds⟩ := settles.bound name call found
    refine ⟨⟨spec, declared, same⟩, fun e there plain => ?_⟩
    rw [binds.params, binds.returns] at there
    refine ((obstacle?_eq_none_iff.mp free).types e there).imp_left fun wild => ?_
    obtain ⟨eName, eParams⟩ := e
    rw [show eName = "Any" from wild, show eParams = [] from plain wild, TypeExpr.concrete]
  · rw [settles.failures, List.mem_filterMap] at recorded
    obtain ⟨spec, declared, from'⟩ := recorded
    obtain ⟨e, -, rfl⟩ := Option.map_eq_some_iff.mp from'
    exact ⟨spec, declared, rfl⟩

/-- Of two declarations the one with an unknown type fails, and the other one is bound. -/
theorem ofSpecs_binds_unknownType :
    let s := ((Store.ofVersion (.ofNumbers 1 0 0)).defineFunction "" "same" [] fun args => .done (args.headD .null)).2
    let specs : List DirectCallSpec :=
      [⟨"f", "same", [.concrete "Nope"], none, true⟩, ⟨"g", "same", [.concrete "Any"], none, true⟩]
    let made := ofSpecs .empty specs s
    (specs.map DirectCallSpec.name).Nodup ∧ made.1.calls.get? "f" = none ∧
      ∃ call, made.1.calls.get? "g" = some call ∧ made.2.binding? call.function.cell = some ⟨2⟩ := by
  intro s specs made
  have distinct : (specs.map DirectCallSpec.name).Nodup := by decide
  obtain ⟨each, -, -⟩ := ofSpecs_binds .empty specs s distinct
  have unbindable : ¬ Bindable .empty s ⟨"f", "same", [.concrete "Nope"], none, true⟩ := by
    rw [← obstacle?_eq_none_iff]
    decide +kernel
  have bindable : Bindable .empty s ⟨"g", "same", [.concrete "Any"], none, true⟩ := by
    rw [← obstacle?_eq_none_iff]
    decide +kernel
  obtain ⟨-, absent, -⟩ := (each _ List.mem_cons_self).resolve_left fun bound => unbindable bound.1
  obtain ⟨-, -, call, found, binds⟩ :=
    (each _ (List.mem_cons_of_mem _ List.mem_cons_self)).resolve_right fun failed => failed.1 bindable
  obtain ⟨h, resolved, bound⟩ := binds.function
  have there : s.resolveFunction "same" = .ok ⟨2⟩ := by decide +kernel
  obtain rfl := Except.ok.inj (there.symm.trans resolved)
  exact ⟨distinct, absent, call, found, bound⟩

/-- A type that is named `Any` is let in with any parameters. -/
theorem ofSpecs_binds_unknownParameter :
    let s := ((Store.ofVersion (.ofNumbers 1 0 0)).defineFunction "" "same" [] fun args => .done (args.headD .null)).2
    let wild : TypeExpr := ⟨"Any", [.concrete "Nope"]⟩
    let made := ofSpecs .empty [⟨"g", "same", [wild], none, true⟩] s
    wild ≠ .concrete "Any" ∧ Registry.empty.isRegistered wild = false ∧
      Registry.empty.isRegistered (.concrete "Nope") = false ∧
      made.1.calls.get? "g" = some ⟨"g", ⟨⟨0⟩, true⟩, [wild], none⟩ ∧ made.1.failures = [] := by
  decide +kernel

end DirectCalls

end ForeignBridge
