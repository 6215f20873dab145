import ForeignBridge.Proofs.Crossings
import ForeignBridge.Proofs.Conversions
import ForeignBridge.Proofs.Describing

/-! # The fault check after a crossing

The foreign runtime says by a pending fault that a crossing has failed. The check that follows waits for the description
of the exception, so it comes to an end only if that does; `TakesFault` is this check without a bound.

`Checked t report after` is what the check makes of the store `t` in which the crossing has ended. It ends exactly if
`TakesFault` does, and then the crossing is `Settled`: the pending fault, and nothing else, is reported, with its
description, and the call log goes on with the check, and with the description and the clearing of the fault or else
with looking at slots. Calling, reading a field, applying a family and direct calls all end that way. -/

namespace ForeignBridge

namespace Store

variable {s t w : Store}

/-! ### Faults and the call log stay -/

/-- What the fault protocol is about: the pending fault, the call log, and whether the store is halted. -/
def protocol (s : Store) : Option Handle × Option (Array Event) × Bool := (s.fault, s.log, s.halted)

theorem protocol_updateSlot (s : Store) (h : Handle) (f : Slot → Slot) : (s.updateSlot h f).protocol = s.protocol :=
  apply_updateSlot s h f protocol fun _ _ _ => rfl

theorem protocol_hold (s : Store) (h : Handle) : (s.hold h).2.protocol = s.protocol := by
  rw [hold_eq]
  exact protocol_updateSlot s h _

theorem protocol_releaseAll (cs : List CellId) : ∀ s : Store, (s.releaseAll cs).protocol = s.protocol :=
  apply_releaseAll protocol (apply_release protocol (fun _ _ _ => rfl) fun s h => protocol_updateSlot s h _) cs

theorem protocol_retainAll (cs : List CellId) : ∀ s : Store, (s.retainAll cs).protocol = s.protocol :=
  apply_retainAll protocol (fun _ _ => rfl) cs

theorem protocol_allocate (object : Object) (s : Store) : (s.allocate object).2.protocol = s.protocol :=
  protocol_retainAll object.cells s

theorem protocol_create (type : Handle) (fields : List (String × Datum CellId)) (s : Store) :
    (s.create type fields).2.protocol = s.protocol := by
  refine (protocol_allocate _ _).trans (apply_foldl protocol ?_ fields _)
  exact fun p field => protocol_allocate (.value field.2) p.2

theorem protocol_provideFamily (name : String) (s : Store) : (s.provideFamily name).2.protocol = s.protocol := by
  obtain ⟨_, _, same⟩ | ⟨_, same⟩ := s.provideFamily_cases name
  · rw [same]
  · rw [same]
    rfl

theorem protocol_enter (parent : Handle) (name : String) (s : Store) :
    (s.enter parent name).2.protocol = s.protocol := by
  obtain ⟨_, _, same⟩ | ⟨_, same⟩ := s.enter_cases parent name
  · rw [same]
  · rw [same]
    exact (protocol_updateSlot _ _ _).trans (protocol_allocate _ s)

theorem protocol_enterAll (parts : List String) : ∀ (parent : Handle) (s : Store),
    (s.enterAll parent parts).2.protocol = s.protocol := by
  induction parts with
  | nil => exact fun _ _ => rfl
  | cons name parts ih => exact fun parent s => (ih _ _).trans (protocol_enter parent name s)

theorem protocol_defineModule (path : String) (s : Store) : (s.defineModule path).2.protocol = s.protocol :=
  protocol_enterAll _ _ s

theorem protocol_defineMember (path name : String) (value : Handle) (s : Store) :
    (s.defineMember path name value).protocol = s.protocol :=
  (protocol_updateSlot _ _ _).trans (protocol_defineModule path s)

theorem protocol_defineFunction (path name : String) (captured : List CellId) (body : List Handle → Program)
    (s : Store) : (s.defineFunction path name captured body).2.protocol = s.protocol :=
  (protocol_defineMember _ _ _ _).trans (protocol_allocate _ s)

theorem protocol_defineGlobal (path name : String) (data : Datum CellId) (s : Store) :
    (s.defineGlobal path name data).2.protocol = s.protocol :=
  (protocol_defineMember _ _ _ _).trans (protocol_allocate _ s)

theorem protocol_collect (s : Store) : s.collect.2.protocol = s.protocol := by
  rw [collect_eq]
  exact (protocol_releaseAll _ _).trans (apply_sweep protocol (fun _ _ => rfl) s)

theorem protocol_bind {c : CellId} {h : Handle} (bound : s.bind c h = .ok t) : t.protocol = s.protocol := by
  obtain ⟨_, rfl⟩ := bind_eq_ok.mp bound
  exact protocol_updateSlot s h _

theorem fault_of_protocol (same : t.protocol = s.protocol) : t.fault = s.fault := congrArg (·.1) same

theorem halted_of_protocol (same : t.protocol = s.protocol) : t.halted = s.halted := congrArg (·.2.2) same

@[simp] theorem fault_root (s : Store) (h : Handle) : (s.root h).fault = s.fault := fault_updateSlot s h _
@[simp] theorem fault_unroot (s : Store) (h : Handle) : (s.unroot h).fault = s.fault := fault_updateSlot s h _

@[simp] theorem fault_hold (s : Store) (h : Handle) : (s.hold h).2.fault = s.fault :=
  fault_of_protocol (protocol_hold s h)

@[simp] theorem fault_release (s : Store) (c : CellId) : (s.release c).fault = s.fault :=
  apply_release fault (fun _ _ _ => rfl) fault_unroot s c

@[simp] theorem fault_releaseAll (cs : List CellId) (s : Store) : (s.releaseAll cs).fault = s.fault :=
  fault_of_protocol (protocol_releaseAll cs s)

@[simp] theorem fault_retainAll (cs : List CellId) (s : Store) : (s.retainAll cs).fault = s.fault :=
  fault_of_protocol (protocol_retainAll cs s)

/-! ### Looking at slots -/

/-- Nothing happens to the fault, the store is not halted, and the call log goes on with looking at slots. -/
structure Inspects (s t : Store) : Prop where
  fault : t.fault = s.fault
  halted : t.halted = s.halted
  log : ∃ n, t.log = s.log.map (· ++ Array.replicate n .inspect)

theorem Inspects.of_eq (same : t.protocol = s.protocol) : s.Inspects t := by
  refine ⟨fault_of_protocol same, halted_of_protocol same, 0, ?_⟩
  rw [show t.log = s.log from congrArg (·.2.1) same]
  cases s.log <;> simp

theorem Inspects.refl (s : Store) : s.Inspects s := .of_eq rfl

theorem Inspects.trans (first : s.Inspects t) (second : t.Inspects w) : s.Inspects w := by
  obtain ⟨n, hn⟩ := first.log
  obtain ⟨m, hm⟩ := second.log
  refine ⟨second.fault.trans first.fault, second.halted.trans first.halted, n + m, ?_⟩
  rw [hm, hn, Option.map_map]
  cases s.log with
  | none => rfl
  | some events => simp [Array.append_assoc]

theorem inspects_inspect (h : Handle) (s : Store) : s.Inspects (s.inspect h).2 := by
  rw [inspect_snd]
  refine ⟨rfl, rfl, 1, ?_⟩
  show s.log.map (·.push .inspect) = _
  cases s.log with
  | none => rfl
  | some events => simp

theorem inspects_hold (h : Handle) (s : Store) : s.Inspects (s.hold h).2 := .of_eq (protocol_hold s h)

theorem inspects_retainAll (cs : List CellId) (s : Store) : s.Inspects (s.retainAll cs) :=
  .of_eq (protocol_retainAll cs s)

theorem inspects_releaseAll (cs : List CellId) (s : Store) : s.Inspects (s.releaseAll cs) :=
  .of_eq (protocol_releaseAll cs s)

end Store

namespace ConversionPolicy

open Store

/-- A conversion that only looks at slots, and fails only for a limit. -/
inductive Looks {α : Type} (limit : ℕ) (s : Store) : Except BridgeError α × Store → Prop where
  | ok (x : α) (t : Store) (inspects : s.Inspects t) : Looks limit s (.ok x, t)
  | deep (t : Store) (inspects : s.Inspects t) : Looks limit s (.error (.tooDeep limit), t)

section decoder

variable {limit : ℕ} {decode : Decoder} (looks : ∀ (h : Handle) (s : Store), Looks limit s (decode h s))

include looks

theorem looks_decodeItems :
    ∀ (items : List Handle) {s t : Store}, s.Inspects t → Looks limit s (decodeItems decode items t)
  | [], s, t, before => .ok [] t before
  | h :: rest, s, t, before => by
      have head := looks h t
      unfold decodeItems
      generalize decode h t = decoded at head ⊢
      cases head with
      | deep w first => exact .deep w (before.trans first)
      | ok v w first =>
        have tail := looks_decodeItems rest (before.trans first)
        dsimp only
        generalize decodeItems decode rest w = decoded at tail ⊢
        cases tail with
        | deep w' later => exact .deep _ (later.trans (inspects_releaseAll v.references w'))
        | ok vs w' later => exact .ok _ w' later

theorem looks_decodePairs : ∀ (pairs : List (Handle × Handle)) (fields : Keyed (Value CellId)) {s t : Store},
    s.Inspects t → Looks limit s (decodePairs decode fields pairs t)
  | [], fields, s, t, before => .ok (some fields) t before
  | (k, h) :: rest, fields, s, t, before => by
      have shown := before.trans (inspects_inspect k t)
      unfold decodePairs
      generalize t.inspect k = key at shown ⊢
      obtain ⟨data, t'⟩ := key
      dsimp only at shown ⊢
      split
      · exact .ok none _ (shown.trans (inspects_releaseAll _ t'))
      · split
        · exact .ok none _ (shown.trans (inspects_releaseAll _ t'))
        · have head := looks h t'
          generalize decode h t' = decoded at head ⊢
          cases head with
          | deep w first => exact .deep _ ((shown.trans first).trans (inspects_releaseAll _ w))
          | ok v w first => exact looks_decodePairs rest _ (shown.trans first)

end decoder

/-- **A conversion from the foreign store only looks at slots**, as far as faults and the call log go. -/
theorem looks_fromForeignWithin (p : ConversionPolicy) (budget : ℕ) (h : Handle) (s : Store) :
    Looks p.maxDepth s (p.fromForeignWithin budget h s) := by
  induction budget generalizing h s with
  | zero => exact .deep s (.refl s)
  | succ budget ih =>
    have shown := inspects_inspect h s
    unfold fromForeignWithin
    generalize s.inspect h = slot at shown ⊢
    obtain ⟨data, s'⟩ := slot
    dsimp only at shown ⊢
    have held := shown.trans (inspects_hold h s')
    cases data with
    | host v => exact .ok v _ (shown.trans (inspects_retainAll v.references s'))
    | nothing | bool | int | float | str | symbol =>
      dsimp only
      split
      · exact .ok _ _ shown
      · exact .ok _ _ held
    | array items =>
      dsimp only
      split
      · have decoded := looks_decodeItems ih items shown
        generalize decodeItems (p.fromForeignWithin budget) items s' = result at decoded ⊢
        cases decoded with
        | deep t looks => exact .deep t looks
        | ok vs t looks => exact .ok _ t looks
      · exact .ok _ _ held
    | dict pairs =>
      dsimp only
      split
      · have decoded := looks_decodePairs ih pairs [] shown
        generalize decodePairs (p.fromForeignWithin budget) [] pairs s' = result at decoded ⊢
        cases decoded with
        | deep t looks => exact .deep t looks
        | ok fields t looks =>
          cases fields with
          | none => exact .ok _ _ (looks.trans (inspects_hold h t))
          | some fields => exact .ok _ t looks
      · exact .ok _ _ held
    | unknown => exact .ok _ _ held

theorem looks_receive (b : Bridge) (autoConvert : Bool) (h : Handle) (s : Store) :
    Looks b.policy.maxDepth s (b.receive autoConvert h s) := by
  unfold Bridge.receive
  split
  · exact looks_fromForeignWithin b.policy _ h s
  · exact .ok _ _ (inspects_hold h s)

end ConversionPolicy

/-! ### The check -/

/-- The description of a fault that an error of the bridge reports. -/
def BridgeError.fault? : BridgeError → Option String
  | .foreignFault description => some description
  | _ => none

/-- The description of a fault that an error of registration reports. -/
def RegistrationError.fault? : RegistrationError → Option String
  | .bridge e => e.fault?
  | _ => none

/-- The description of a fault that an outcome reports. -/
def reported {ε α : Type} (fault? : ε → Option String) : Except ε α → Option String
  | .ok _ => none
  | .error e => fault? e

namespace Store

variable {s t after : Store} {exception : Handle} {text : Option String}

/-- How a fault is reported: by the readable form of its exception, or else by its handle. -/
def faultText (exception : Handle) (text : Option String) : String :=
  text.getD s!"unprintable foreign exception {exception.render}"

/-- The check for a fault comes to an end, with its outcome and the store that it leaves. -/
inductive TakesFault (s : Store) : Except BridgeError Unit × Store → Prop where
  | clean (none : s.fault = none) : TakesFault s (.ok (), s.note .pendingFault)
  | faulted {exception : Handle} {text : Option String} (pending : s.fault = some exception)
      (described : s.Describes exception text) :
      TakesFault s (.error (.foreignFault (faultText exception text)),
        ((s.note .pendingFault).note .describe).clearFault)

/-- What comes of a crossing that has ended in the store `t`, if the check comes to an end: the report, and the store
that is left. -/
structure Settled (t : Store) (report : Option String) (after : Store) : Prop where
  pending : report = none ↔ t.fault = none
  reported : ∀ {exception text}, t.fault = some exception → t.Describes exception text →
    report = some (faultText exception text)
  faulted : t.fault ≠ none → after.log = t.log.map (· ++ #[.pendingFault, .describe, .clearFault])
  clean : t.fault = none → ∃ n, after.log = t.log.map (· ++ (#[.pendingFault] ++ Array.replicate n .inspect))

/-- What the check makes of a crossing that has ended in the store `t`. -/
structure Checked (t : Store) (report : Option String) (after : Store) : Prop where
  ends : after.halted = false ↔ t.halted = false ∧ ∃ outcome, t.TakesFault outcome
  settled : ∀ {outcome}, t.TakesFault outcome → Settled t report after
  cleared : after.fault = none

theorem TakesFault.describes {outcome : Except BridgeError Unit × Store} (taken : t.TakesFault outcome)
    (pending : t.fault = some exception) : ∃ text, t.Describes exception text := by
  cases taken with
  | clean none =>
    rw [none] at pending
    cases pending
  | faulted pending' described =>
    obtain rfl := Option.some.inj (pending'.symm.trans pending)
    exact ⟨_, described⟩

theorem describeWithin_note (e : Event) (s : Store) (depth : ℕ) (h : Handle) :
    (s.note e).describeWithin depth h = s.describeWithin depth h := by
  induction depth generalizing h with
  | zero => rfl
  | succ depth ih =>
    have same : (s.note e).describeWithin depth = s.describeWithin depth := funext ih
    unfold describeWithin
    rw [same]
    rfl

theorem description_note (e : Event) (s : Store) (h : Handle) : (s.note e).description h = s.description h :=
  describeWithin_note e s _ h

theorem describe_of_describes {h : Handle} (described : s.Describes h text) :
    s.describe h = (text, s.note .describe) := by
  unfold describe
  simp only [description_note, describes_iff.mp described]

theorem describe_of_endless {h : Handle} (endless : ∀ text, ¬ s.Describes h text) :
    s.describe h = (none, (s.note .describe).halt) := by
  have none : s.description h = none :=
    Option.eq_none_iff_forall_ne_some.mpr fun text there => endless text (describes_iff.mpr there)
  unfold describe
  simp only [description_note, none]

theorem describes_note {e : Event} {h : Handle} : (s.note e).Describes h text ↔ s.Describes h text := by
  rw [describes_iff, describes_iff, description_note]

/-! ### How the check ends -/

theorem takeFault_of_none (clean : t.fault = none) : t.takeFault = (.ok (), t.note .pendingFault) := by
  unfold takeFault pendingFault
  rw [clean]

theorem takeFault_of_some (pending : t.fault = some exception) (described : t.Describes exception text) :
    t.takeFault = (.error (.foreignFault (faultText exception text)),
      ((t.note .pendingFault).note .describe).clearFault) := by
  unfold takeFault pendingFault
  rw [pending]
  simp only [describe_of_describes (describes_note.mpr described), faultText]

/-- A check that waits for a description that never ends. -/
theorem takeFault_of_endless (pending : t.fault = some exception) (endless : ∀ text, ¬ t.Describes exception text) :
    t.takeFault = (.error (.foreignFault (faultText exception none)),
      ((t.note .pendingFault).note .describe).halt.clearFault) := by
  unfold takeFault pendingFault
  rw [pending]
  simp only [describe_of_endless fun text => describes_note.not.mpr (endless text), faultText]

/-- **If the check comes to an end, then as it is computed.** -/
theorem TakesFault.eq {outcome : Except BridgeError Unit × Store} (taken : s.TakesFault outcome) :
    s.takeFault = outcome := by
  cases taken with
  | clean none => exact takeFault_of_none none
  | faulted pending described => exact takeFault_of_some pending described

theorem crossing_of_none {α : Type} {f : Store → α × Store} (clean : (f s).2.fault = none) :
    s.crossing f = (.ok (f s).1, (f s).2.note .pendingFault) := by
  unfold crossing
  simp only [takeFault_of_none clean]

/-- Without a fault, what comes after the check only looks at slots. -/
theorem checked_of_none (clean : t.fault = none) (looks : (t.note .pendingFault).Inspects after) :
    Checked t none after where
  ends := by
    rw [looks.halted]
    exact (and_iff_left ⟨_, .clean clean⟩).symm
  settled _ :=
    { pending := iff_of_true rfl clean
      reported := fun pending => by
        rw [clean] at pending
        cases pending
      faulted := fun pending => absurd clean pending
      clean := fun _ => by
        obtain ⟨n, hn⟩ := looks.log
        refine ⟨n, hn.trans ?_⟩
        show (t.log.map (·.push .pendingFault)).map _ = _
        cases t.log with
        | none => rfl
        | some events => simp }
  cleared := looks.fault.trans clean

/-- With one whose description ends, the check ends, too. -/
theorem checked_of_described (pending : t.fault = some exception) (described : t.Describes exception text) :
    Checked t (some (faultText exception text)) t.takeFault.2 := by
  rw [takeFault_of_some pending described]
  refine ⟨(and_iff_left ⟨_, .faulted pending described⟩).symm, fun _ => ?_, rfl⟩
  constructor
  · exact iff_of_false (by simp) (by simp [pending])
  · intro exception' text' pending' described'
    obtain rfl := Option.some.inj (pending.symm.trans pending')
    rw [described.unique described']
  · intro _
    show ((t.log.map (·.push .pendingFault)).map (·.push .describe)).map (·.push .clearFault) = _
    cases t.log <;> rfl
  · intro clean
    rw [pending] at clean
    cases clean

/-- With any other, it does not. -/
theorem checked_of_endless {report : Option String} (pending : t.fault = some exception)
    (endless : ∀ text, ¬ t.Describes exception text) : Checked t report t.takeFault.2 := by
  have never : ∀ outcome, ¬ t.TakesFault outcome := fun outcome taken => by
    obtain ⟨text, described⟩ := taken.describes pending
    exact endless text described
  rw [takeFault_of_endless pending endless]
  refine ⟨iff_of_false (by simp [clearFault, note, halt]) fun ends => ?_, fun taken => absurd taken (never _), rfl⟩
  obtain ⟨outcome, taken⟩ := ends.2
  exact never outcome taken

/-- A crossing with a fault hands on no result, and its check makes of it what it should. -/
theorem crossing_of_some {α : Type} {f : Store → α × Store} (pending : (f s).2.fault = some exception) :
    ∃ report after, s.crossing f = (.error (.foreignFault report), after) ∧ Checked (f s).2 (some report) after := by
  unfold crossing
  dsimp only
  by_cases ends : ∃ text, (f s).2.Describes exception text
  · obtain ⟨text, described⟩ := ends
    have checked := checked_of_described pending described
    rw [takeFault_of_some pending described] at checked ⊢
    exact ⟨_, _, rfl, checked⟩
  · have endless : ∀ text, ¬ (f s).2.Describes exception text := fun text described => ends ⟨text, described⟩
    have checked : Checked (f s).2 (some (faultText exception none)) (f s).2.takeFault.2 :=
      checked_of_endless pending endless
    rw [takeFault_of_endless pending endless] at checked ⊢
    exact ⟨_, _, rfl, checked⟩

/-- What changes neither the fault nor the call log does not matter. -/
theorem Checked.congr {report : Option String} (checked : Checked t report after) {w : Store}
    (same : w.protocol = after.protocol) : Checked t report w where
  ends := by
    rw [show w.halted = after.halted from congrArg (·.2.2) same]
    exact checked.ends
  settled taken :=
    { pending := (checked.settled taken).pending
      reported := (checked.settled taken).reported
      faulted := fun pending => (congrArg (·.2.1) same).trans ((checked.settled taken).faulted pending)
      clean := fun none => by
        rw [show w.log = after.log from congrArg (·.2.1) same]
        exact (checked.settled taken).clean none }
  cleared := (congrArg (·.1) same).trans checked.cleared

theorem checked_crossing {α : Type} (f : Store → α × Store) (s : Store) :
    Checked (f s).2 (reported BridgeError.fault? (s.crossing f).1) (s.crossing f).2 := by
  cases pending : (f s).2.fault with
  | none =>
    rw [crossing_of_none pending]
    exact checked_of_none pending (.refl _)
  | some exception =>
    obtain ⟨report, after, crossed, checked⟩ := crossing_of_some pending
    rw [crossed]
    exact checked

end Store

/-! ### The crossings of the bridge -/

open Store

variable {s t : Store}

/-- **The check comes right after the crossing**, before anything is released or converted. -/
theorem Bridge.checked_leave (b : Bridge) (autoConvert : Bool) (held : List CellId) (f : Store → Handle × Store)
    (s : Store) : Checked (f s).2 (reported BridgeError.fault? (b.leave autoConvert held (s.crossing f)).1)
      (b.leave autoConvert held (s.crossing f)).2 := by
  cases pending : (f s).2.fault with
  | none =>
    rw [crossing_of_none pending]
    have released := inspects_releaseAll held ((f s).2.note .pendingFault)
    have received := ConversionPolicy.looks_receive b autoConvert (f s).1 (((f s).2.note .pendingFault).releaseAll held)
    unfold leave
    dsimp only
    generalize b.receive autoConvert (f s).1 _ = result at received ⊢
    cases received with
    | ok v t looks => exact checked_of_none pending (released.trans looks)
    | deep t looks => exact checked_of_none pending (released.trans looks)
  | some exception =>
    obtain ⟨report, after, crossed, checked⟩ := crossing_of_some pending
    rw [crossed]
    exact checked.congr (protocol_releaseAll held after)

theorem Bridge.checked_invoke (b : Bridge) (f : Callable) (args : List (Value CellId)) {held : List CellId}
    (ready : b.phase = .ready)
    (converted : convertArguments (b.argumentPolicy f.autoConvert) args s = (.ok held, t)) :
    Checked (t.call (t.read f.cell) (held.map t.read)).2 (reported BridgeError.fault? (b.invoke f args s).1)
      (b.invoke f args s).2 := by
  have entered : b.enter f args s = (.ok held, t) := by
    unfold enter isReady
    rw [ready]
    exact converted
  rw [invoke_of_entered entered]
  exact b.checked_leave f.autoConvert held _ t

theorem Bridge.checked_readField (b : Bridge) {v : Value CellId} {c : CellId} (there : v.reference? = some c)
    (name : String) (autoConvert : Bool) (s : Store) :
    Checked (s.readField (s.read c) name).2 (reported BridgeError.fault? (b.readField v name autoConvert s).1)
      (b.readField v name autoConvert s).2 := by
  rw [readField_of_reference? there]
  exact b.checked_leave autoConvert [] _ s

/-! ### The crossings of registration -/

/-- **Applying a family to register a type is checked.** -/
theorem Registry.checked_instantiate (r : Registry) {t : TypeExpr} {family : RegisteredFamily} {params : List Handle}
    (fresh : r.lookup s t = none) (known : r.families.get? t.name = some family)
    (arity : t.params.length = family.template.arity) (given : r.parameters s t t.params = .ok params) :
    Checked (s.applyFamily (s.read family.constructor) params).2
      (reported RegistrationError.fault? (r.instantiate t s).1) (r.instantiate t s).2.2 := by
  have checked := checked_crossing (Store.applyFamily (s.read family.constructor) params) s
  unfold instantiate
  simp only [fresh, known, arity, given, ne_eq, not_true_eq_false, if_false]
  generalize s.crossing (Store.applyFamily (s.read family.constructor) params) = result at checked ⊢
  obtain ⟨_ | h, s'⟩ := result
  · exact checked
  · exact checked.congr ((protocol_releaseAll _ _).trans (protocol_hold s' h))

theorem Registry.fault?_parameters {r : Registry} {t : TypeExpr} {e : RegistrationError} : ∀ {ps : List TypeExpr},
    r.parameters s t ps = .error e → e.fault? = none := by
  intro ps
  induction ps with
  | nil => exact fun failed => by cases failed
  | cons p ps ih =>
    intro failed
    unfold parameters at failed
    split at failed
    · obtain rfl := Except.error.inj failed
      rfl
    · split at failed
      · cases failed
      · next _ failed' =>
        obtain rfl := Except.error.inj failed
        exact ih failed'

/-- **Registering a type either does not cross, and then changes nothing, or its crossing is checked.** -/
theorem Registry.idle_or_checked_instantiate (r : Registry) (t : TypeExpr) (s : Store) :
    (reported RegistrationError.fault? (r.instantiate t s).1 = none ∧ (r.instantiate t s).2.2 = s) ∨
    ∃ family params, r.families.get? t.name = some family ∧ r.parameters s t t.params = .ok params ∧
      Checked (s.applyFamily (s.read family.constructor) params).2
        (reported RegistrationError.fault? (r.instantiate t s).1) (r.instantiate t s).2.2 := by
  have ends := r.ends_instantiate t s
  generalize ended : r.instantiate t s = result at ends ⊢
  cases ends with
  | known | unknownFamily | arityMismatch => exact .inl ⟨rfl, rfl⟩
  | refused _ _ _ refused => exact .inl ⟨fault?_parameters refused, rfl⟩
  | faulted new there arity given | made new there arity given =>
    refine .inr ⟨_, _, there, given, ?_⟩
    rw [← ended]
    exact r.checked_instantiate new there arity given

theorem DirectCall.fault?_check {call : DirectCall} {r : Registry} {place : Position} {expected : TypeExpr}
    {v : Value CellId}
    {e : RegistrationError} (refused : call.check r s place expected v = .error e) : e.fault? = none := by
  unfold check at refused
  split at refused
  · cases refused
  · split at refused
    · obtain rfl := Except.error.inj refused
      rfl
    · split at refused
      · cases refused
      · obtain rfl := Except.error.inj refused
        rfl

/-- The call that a direct call makes is checked, and the check of its result does not matter. -/
theorem DirectCall.checked_invoke (call : DirectCall) (b : Bridge) (r : Registry) (args : List (Value CellId))
    {held : List CellId} (ready : b.phase = .ready) (accepted : call.accepts r s args = .ok ())
    (converted : Bridge.convertArguments (b.argumentPolicy call.function.autoConvert) args s = (.ok held, t)) :
    Checked (t.call (t.read call.function.cell) (held.map t.read)).2
      (reported RegistrationError.fault? (call.invoke b r args s).1) (call.invoke b r args s).2 := by
  have checked := b.checked_invoke call.function args ready converted
  have ends := call.ends_invoke b r args s
  generalize call.invoke b r args s = result at ends ⊢
  cases ends with
  | refused refused =>
    rw [accepted] at refused
    cases refused
  | failed _ ended | returned _ ended =>
    rw [ended] at checked
    exact checked
  | @misfit _ _ _ e _ ended _ refused =>
    rw [ended] at checked
    have unreported : reported RegistrationError.fault? (.error e : Except _ (Value CellId)) = none :=
      fault?_check refused
    rw [unreported]
    exact checked.congr (protocol_releaseAll _ _)

end ForeignBridge
