import ForeignBridge.Proofs.Calls
import ForeignBridge.Proofs.Lifetimes

/-! # Activity

Whatever handles it is given, known or not, an operation of a store is activity: elementary changes and sweeps that
account for the cells (`Acts`). So what no activity can do, no operation can do, and nothing has to be known of the
handles that a program passes in.

* `acts_*` say so of each operation, `acts_answer` of each request.
* `Traces` says that a store goes through the moments of a list by activity, and that an application of a family leaves
  the store that it leaves.
* A program traces its moments, and so does a call, however deep it may go (`traces_run`, `traces_call`). -/

namespace ForeignBridge

namespace Store

variable {s t w : Store} {o p q : Multiset CellId}

theorem Change.acts (change : s.Change o t p) : s.Acts o t p := .change .refl change

theorem Acts.trans (first : s.Acts o t p) (second : t.Acts p w q) : s.Acts o w q := by
  induction second with
  | refl => exact first
  | change _ change ih => exact ih.change change
  | sweep _ ih => exact ih.sweep

/-! ### Operations -/

theorem acts_note (e : Event) : s.Acts o (s.note e) o := (Change.log o _ _).acts

theorem acts_halt : s.Acts o s.halt o := (Change.log o _ _).acts

theorem acts_retainAll (cs : List CellId) {s : Store} {o : Multiset CellId} (held : ∀ c ∈ cs, c ∈ o + s.boxed) :
    s.Acts o (s.retainAll cs) (cs + o) := (Ledger.moves_retainAll (r := 0) (u := 0) cs held).evolves.acts

theorem acts_releaseAll (cs : List CellId) {s : Store} : s.Acts (cs + o) (s.releaseAll cs) o :=
  (Ledger.moves_releaseAll (r := 0) (u := 0) cs).evolves.acts

theorem acts_push {object : Object} (cellless : object.cells = []) (enters : s.Enters object) :
    s.Acts o (s.pushSlot object) o := by
  have pushed := (Change.push o object enters).acts
  rwa [cellless, Multiset.coe_nil, zero_add] at pushed

theorem acts_allocate {object : Object} (plain : object.isTypeEntry = false) (held : ∀ c ∈ object.cells, c ∈ o) :
    s.Acts o (s.allocate object).2 o := by
  rw [allocate_eq s object plain]
  have retained : s.Acts o (s.retainAll object.cells) (object.cells + o) :=
    acts_retainAll _ fun c hc => Multiset.mem_add.mpr (.inl (held c hc))
  exact retained.trans (Change.push o object (enters_of_plain plain)).acts

theorem acts_construct {data : Datum CellId} (held : ∀ c ∈ data.references, c ∈ o) :
    s.Acts o (s.construct data).2 o := acts_allocate rfl held

theorem acts_raise {data : Datum CellId} (held : ∀ c ∈ data.references, c ∈ o) : s.Acts o (s.raise data) o :=
  (acts_construct held).trans (Change.fault o _).acts

theorem acts_raiseMessage (message : String) : s.Acts o (s.raiseMessage message) o :=
  acts_raise fun _ hc => by cases hc

theorem acts_fields : ∀ (fields : List (String × Datum CellId)) (members : Keyed Handle) {s : Store},
    (∀ field ∈ fields, ∀ c ∈ field.2.references, c ∈ o) →
    s.Acts o (fields.foldl (fun (members, s) (name, data) =>
      let (h, s) := s.construct data
      (Keyed.insert name h members, s)) (members, s)).2 o
  | [], _, _, _ => .refl
  | (_, _) :: fields, _, _, held =>
      (acts_construct (held _ List.mem_cons_self)).trans
        (acts_fields fields _ fun field hf => held field (List.mem_cons_of_mem _ hf))

theorem acts_create (type : Handle) {fields : List (String × Datum CellId)}
    (held : ∀ field ∈ fields, ∀ c ∈ field.2.references, c ∈ o) : s.Acts o (s.create type fields).2 o :=
  (acts_fields fields [] held).trans (acts_allocate rfl fun _ hc => by cases hc)

theorem acts_provideFamily (name : String) : s.Acts o (s.provideFamily name).2 o := by
  obtain ⟨_, _, same⟩ | ⟨fresh, same⟩ := s.provideFamily_cases name
  · rw [same]
    exact .refl
  · rw [same]
    exact acts_push rfl (enters_family fresh)

theorem acts_applyFamily (head : Handle) (params : List Handle) : s.Acts o (s.applyFamily head params).2 o := by
  apply (acts_note .applyFamily).trans
  have ways := s.appliesFamily head params
  generalize s.applyFamily head params = result at ways ⊢
  cases ways with
  | refused message other => exact acts_raiseMessage message
  | itself | shared => exact .refl
  | made family given fresh => exact acts_push rfl (enters_type family given fresh)

theorem acts_raiseAbout (h : Handle) (message : String → String) : s.Acts o (s.raiseAbout h message) o := by
  obtain ⟨_, _, same⟩ | ⟨_, same⟩ := s.raiseAbout_cases h message
  · rw [same]
    exact acts_raiseMessage _
  · rw [same]
    exact acts_halt

theorem acts_describe (h : Handle) : s.Acts o (s.describe h).2 o :=
  (Ledger.moves_describe (r := 0) (u := 0) h).evolves.acts

theorem acts_readField (h : Handle) (name : String) : s.Acts o (s.readField h name).2 o := by
  apply (acts_note .readField).trans
  obtain ⟨_, _, same⟩ | ⟨_, message, same⟩ := s.readField_cases h name
  · rw [same]
    exact .refl
  · rw [same]
    exact acts_raiseAbout h message

theorem acts_enter (parent : Handle) (name : String) : s.Acts o (s.enter parent name).2 o := by
  obtain ⟨_, _, same⟩ | ⟨_, same⟩ := s.enter_cases parent name
  · rw [same]
    exact .refl
  · rw [same]
    have made : s.Acts o (s.allocate (.module name [])).2 o := acts_allocate rfl fun _ hc => by cases hc
    exact made.trans (Change.setMember o parent name _).acts

theorem acts_enterAll : ∀ (parts : List String) (parent : Handle) {s : Store}, s.Acts o (s.enterAll parent parts).2 o
  | [], _, _ => .refl
  | name :: rest, parent, _ => (acts_enter parent name).trans (acts_enterAll rest _)

theorem acts_defineModule (path : String) : s.Acts o (s.defineModule path).2 o := acts_enterAll _ _

theorem acts_defineMember (path name : String) (h : Handle) : s.Acts o (s.defineMember path name h) o :=
  (acts_defineModule path).trans (Change.setMember o _ name h).acts

theorem acts_defineFunction (path name : String) {captured : List CellId} (body : List Handle → Program)
    (held : ∀ c ∈ captured, c ∈ o) : s.Acts o (s.defineFunction path name captured body).2 o := by
  have made : s.Acts o (s.allocate (.function name captured body)).2 o := acts_allocate rfl held
  exact made.trans (acts_defineMember path name _)

theorem acts_defineGlobal (path name : String) {data : Datum CellId} (held : ∀ c ∈ data.references, c ∈ o) :
    s.Acts o (s.defineGlobal path name data).2 o := (acts_construct held).trans (acts_defineMember path name _)

theorem acts_collect : s.Acts o s.collect.2 o := (Ledger.evolves_collect (R := 0) (U := 0)).acts

/-! ### Requests -/

section requests

variable {outer : List CellId} {r : Running}

theorem acts_inspect (h : Handle) : r.store.Acts (outer ++ r.held : List CellId) (r.inspect h).2.store
    (outer ++ (r.inspect h).2.held : List CellId) := (Ledger.evolves_inspect (R := 0) (U := 0) h).acts

theorem acts_taking {made : CellId × Store} (acts : r.store.Acts (outer ++ r.held : List CellId) made.2
      (made.1 ::ₘ ((outer ++ r.held : List CellId) : Multiset CellId))) :
    r.store.Acts (outer ++ r.held : List CellId) (r.taking made).2.store
      (outer ++ (r.taking made).2.held : List CellId) := by
  rw [Multiset.cons_coe, Multiset.coe_eq_coe.mpr (r.perm_taking outer made)] at acts
  exact acts

theorem acts_bind (i : ℕ) (h : Handle) : r.store.Acts (outer ++ r.held : List CellId) (r.bind i h).2.store
    (outer ++ (r.bind i h).2.held : List CellId) := by
  obtain same | ⟨c, _, s, bound, same⟩ := r.bind_cases i h
  · rw [same]
    exact .refl
  · rw [same]
    exact (Change.bind s _ c h bound).acts

theorem acts_release (i : ℕ) : r.store.Acts (outer ++ r.held : List CellId) (r.release i).store
    (outer ++ (r.release i).held : List CellId) := (Ledger.evolves_release (R := 0) (U := 0) i).acts

/-- **A request that is no call is activity**, whatever handles are passed in. -/
theorem acts_answer (callee : Handle → List Handle → Store → Handle × Store) {request : Request}
    (quiet : ∀ f args, request ≠ .call f args) :
    r.store.Acts (outer ++ r.held : List CellId) (r.answer callee request).2.store
      (outer ++ (r.answer callee request).2.held : List CellId) := by
  cases request with
  | call f args => exact absurd rfl (quiet f args)
  | rootCount | isLive | isCallable | typeOf | submodule | member | family | version | callLog | read => exact .refl
  | construct data => exact acts_construct (r.mem_resolved outer data)
  | create type fields =>
    refine acts_create type fun field hf => ?_
    obtain ⟨⟨name, data⟩, _, rfl⟩ := List.mem_map.mp hf
    exact r.mem_resolved outer data
  | inspect h => exact acts_inspect h
  | describe h => exact acts_describe h
  | readField h name => exact acts_readField h name
  | applyFamily head params => exact acts_applyFamily head params
  | provideFamily name => exact acts_provideFamily name
  | defineModule path => exact acts_defineModule path
  | defineGlobal path name data => exact acts_defineGlobal path name (r.mem_resolved outer data)
  | root h => exact (Change.root _ h).acts
  | unroot h => exact (Change.unroot _ h).acts
  | raise data => exact acts_raise (r.mem_resolved outer data)
  | pendingFault => exact acts_note _
  | clearFault => exact (acts_note _).trans (Change.fault _ none).acts
  | recordCalls => exact (Change.log _ _ _).acts
  | collect => exact acts_collect
  | hold h => exact acts_taking (Change.hold _ h).acts
  | newCell => exact acts_taking (Change.newCell _).acts
  | bind i h => exact acts_bind i h
  | release i => exact acts_release i

end requests

end Store

/-! ### Going through moments -/

/-- The act of a moment leaves a store: if a family is applied, then the store that this leaves. -/
def Moment.Leaves (m : Moment) (t : Store) : Prop :=
  ∀ head params, m.act = .request (.applyFamily head params) → t = (m.store.applyFamily head params).2

/-- The store goes through the moments of a list by activity, with the cells held from outside before and after. -/
inductive Traces : Store → Multiset CellId → List Moment → Store → Multiset CellId → Prop where
  | nil {s t : Store} {o p : Multiset CellId} (last : s.Acts o t p) : Traces s o [] t p
  | cons {s t w : Store} {o p q : Multiset CellId} {m : Moment} {ms : List Moment} (before : s.Acts o m.store m.held)
      (act : m.store.Acts m.held t p) (leaves : m.Leaves t) (rest : Traces t p ms w q) : Traces s o (m :: ms) w q

namespace Traces

variable {s t w : Store} {o p q : Multiset CellId} {ms ns pre post : List Moment} {m : Moment}

theorem acts (traces : Traces s o ms t p) : s.Acts o t p := by
  induction traces with
  | nil last => exact last
  | cons before act _ _ ih => exact before.trans (act.trans ih)

theorem append (first : Traces s o ms t p) (second : Traces t p ns w q) : Traces s o (ms ++ ns) w q := by
  induction first with
  | nil last =>
    cases second with
    | nil later => exact .nil (last.trans later)
    | cons before act leaves rest => exact .cons (last.trans before) act leaves rest
  | cons before act leaves _ ih => exact .cons before act leaves (ih second)

theorem before (first : s.Acts o t p) (traces : Traces t p ms w q) : Traces s o ms w q :=
  (Traces.nil first).append traces

theorem after (traces : Traces s o ms t p) (last : t.Acts p w q) : Traces s o ms w q := by
  rw [← List.append_nil ms]
  exact traces.append (.nil last)

/-- What comes after a moment. -/
theorem from_moment (traces : Traces s o ms t p) (split : ms = pre ++ m :: post) :
    ∃ w q, m.Leaves w ∧ Traces w q post t p := by
  induction traces generalizing pre with
  | nil _ => simp at split
  | cons before act leaves rest ih =>
    cases pre with
    | nil =>
      obtain ⟨rfl, rfl⟩ := List.cons.inj split
      exact ⟨_, _, leaves, rest⟩
    | cons n pre =>
      obtain ⟨rfl, rfl⟩ := List.cons.inj split
      exact ih rfl

/-- The activity up to a moment. -/
theorem to_moment (traces : Traces s o ms t p) (split : ms = pre ++ m :: post) : s.Acts o m.store m.held := by
  induction traces generalizing pre with
  | nil _ => simp at split
  | cons before act _ _ ih =>
    cases pre with
    | nil =>
      obtain ⟨rfl, rfl⟩ := List.cons.inj split
      exact before
    | cons n pre =>
      obtain ⟨rfl, rfl⟩ := List.cons.inj split
      exact before.trans (act.trans (ih rfl))

end Traces

/-! ### Programs -/

section programs

variable {callee : Handle → List Handle → Store → Handle × Store}
  {nested : List CellId → Handle → List Handle → Store → List Moment}

/-- Calls through `callee` trace the moments that `nested` lists and give back the cells that they take. -/
def TracesCalls (callee : Handle → List Handle → Store → Handle × Store)
    (nested : List CellId → Handle → List Handle → Store → List Moment) : Prop :=
  ∀ (outer : List CellId) (f : Handle) (args : List Handle) (s : Store),
    Traces s outer (nested outer f args s) (callee f args s).2 outer

theorem leaves_answer {callee : Handle → List Handle → Store → Handle × Store} (request : Request) (r : Store.Running)
    (held : List CellId) :
    Moment.Leaves ⟨r.store, held, .request request⟩ (r.answer callee request).2.store := by
  rintro head params same
  obtain rfl : request = .applyFamily head params := Act.request.inj same
  rfl

/-- **A program traces its moments.** -/
theorem traces_run (calls : TracesCalls callee nested) (outer : List CellId) (program : Program) :
    ∀ {r : Store.Running}, Traces r.store (outer ++ r.held : List CellId)
      (Store.programMoments callee nested outer program r) (Store.run callee program r).2.store
      (outer ++ (Store.run callee program r).2.held : List CellId) := by
  induction program with
  | done result =>
    intro r
    exact .cons (m := ⟨r.store, outer ++ r.held, .result result⟩) .refl .refl (fun _ _ same => by cases same)
      (.nil .refl)
  | fail message => exact .nil .refl
  | ask request next ih =>
    intro r
    rcases request.quiet_or_call with quiet | ⟨f, args, rfl⟩
    · rw [Ledger.programMoments_ask quiet]
      exact .cons (m := ⟨r.store, outer ++ r.held, .request request⟩) .refl (Store.acts_answer callee quiet)
        (leaves_answer request r _) (ih _)
    · -- the call stands at its own moment, where nothing happens yet, and then goes through its own moments
      have asked := Traces.cons (m := ⟨r.store, outer ++ r.held, .request (.call f args)⟩) .refl .refl
        (fun _ _ same => by cases same) (calls (outer ++ r.held) f args r.store)
      exact asked.append (ih _ (r := (r.answer callee (.call f args)).2))
  | define path name captured body next _ ih =>
    intro r
    exact (ih _ (r := ⟨_, r.held⟩)).before
      (Store.acts_defineFunction path name body fun _ => r.mem_captured outer captured)

/-- **A call traces its moments, however deep it may go.** -/
theorem traces_callWithin (depth : ℕ) : TracesCalls (Store.callWithin depth) (Store.callMomentsWithin depth) := by
  induction depth with
  | zero => exact fun outer f args s => .nil Store.acts_halt
  | succ depth ih =>
    intro outer f args s
    have noted : s.Acts outer (s.note .call) outer := Store.acts_note _
    rcases (s.note .call).function_or_other f with ⟨name, captured, body, found⟩ | other
    · rw [Store.callMomentsWithin_function found, Store.callWithin_function found]
      have held : ∀ c ∈ captured, c ∈ (outer : Multiset CellId) + (s.note .call).boxed :=
        fun c hc => Multiset.mem_add.mpr (.inr (Store.mem_boxed_of_captured found hc))
      have entered := noted.trans (Store.acts_retainAll captured held)
      rw [Multiset.coe_add, Multiset.coe_eq_coe.mpr List.perm_append_comm] at entered
      have ran := traces_run ih outer (body args) (r := ⟨(s.note .call).retainAll captured, captured⟩)
      generalize Store.run (Store.callWithin depth) (body args) ⟨(s.note .call).retainAll captured, captured⟩ = ended
        at ran ⊢
      obtain ⟨outcome, r⟩ := ended
      have released : r.store.Acts (outer ++ r.held : List CellId) (r.store.releaseAll r.held) outer := by
        rw [Multiset.coe_eq_coe.mpr List.perm_append_comm, ← Multiset.coe_add]
        exact Store.acts_releaseAll _
      have whole := ran.before entered
      cases outcome with
      | error message => exact whole.after (released.trans (Store.acts_raiseMessage message))
      | ok h => exact whole.after released
    · obtain ⟨message, called⟩ := Store.callWithin_of_not_function depth args other
      rw [Store.callMomentsWithin_of_not_function other, called]
      exact .nil (noted.trans (Store.acts_raiseAbout f message))

theorem traces_call : TracesCalls Store.call Store.callMoments :=
  fun outer f args s => traces_callWithin s.stack outer f args s

end programs

end ForeignBridge
