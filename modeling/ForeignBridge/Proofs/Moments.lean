import ForeignBridge.Proofs.Operations
import ForeignBridge.Store.Call

/-! # The moments of a call

While a function runs, the store is seen at each of its requests: a `Moment` is the store at a request, the cells that
are held from outside of the slots just then, and the act that follows. `programMoments` and `callMoments` list the
moments of a run in order, those of nested calls included; they go through exactly the stores that `run` and
`callWithin` go through.

`Along L moments L'` says that the ledger evolves from `L` to `L'` through these moments, and that roots are taken and
given back directly only by the acts at them. -/

namespace ForeignBridge

/-- The handles that a request passes in. -/
def Request.handles : Request → List Handle
  | .construct data => data.handles
  | .create type fields => type :: fields.flatMap fun field => field.2.handles
  | .call f args => f :: args
  | .applyFamily head params => head :: params
  | .defineGlobal _ _ data => data.handles
  | .raise data => data.handles
  | .inspect h | .describe h | .rootCount h | .isLive h | .isCallable h | .typeOf h | .root h | .unroot h | .hold h
  | .readField h _ | .submodule h _ | .member h _ | .bind _ h => [h]
  | .provideFamily _ | .defineModule _ | .family _ | .version | .pendingFault | .clearFault | .recordCalls | .callLog
  | .collect | .newCell | .read _ | .release _ => []

/-- What is done at the boundary of the foreign runtime. -/
inductive Act where
  /-- The host passes handles in. -/
  | inputs (handles : List Handle)
  | request (asked : Request)
  /-- A function returns a handle. -/
  | result (h : Handle)

namespace Act

/-- The handles that are passed in. -/
def handles : Act → List Handle
  | .inputs hs => hs
  | .request asked => asked.handles
  | .result h => [h]

/-- The root that is taken directly. -/
def rooted : Act → Multiset Handle
  | .request (.root h) => {h}
  | _ => 0

/-- The root that is given back directly. -/
def unrooted : Act → Multiset Handle
  | .request (.unroot h) => {h}
  | _ => 0

/-- A root is given back without the cell that it belongs to. -/
def unroots : Act → Bool
  | .request (.unroot _) => true
  | _ => false

theorem unrooted_eq_zero {act : Act} (finalizers : act.unroots = false) : act.unrooted = 0 := by
  cases act with
  | inputs | result => rfl
  | request asked =>
    cases asked with
    | unroot h => cases finalizers
    | _ => rfl

end Act

/-- A store, the cells held from outside of its slots, and what is done next. -/
structure Moment where
  store : Store
  held : List CellId
  act : Act

namespace Moment

/-- Every handle that is passed in is null or was handed out. -/
def Passes (m : Moment) : Prop := ∀ h ∈ m.act.handles, m.store.Issued h

/-- The cells that somebody holds: those held from outside, and those that objects in the slots hold. -/
def holders (m : Moment) : Multiset CellId := m.held + m.store.boxed

/-- The roots taken directly at the moments of a list. -/
def rootedIn (ms : List Moment) : Multiset Handle := (ms.map fun m => m.act.rooted).sum

/-- The roots given back directly at the moments of a list. -/
def unrootedIn (ms : List Moment) : Multiset Handle := (ms.map fun m => m.act.unrooted).sum

instance (m : Moment) : Decidable m.Passes :=
  inferInstanceAs (Decidable (∀ h ∈ m.act.handles, h.raw ≤ m.store.lastId))

@[simp] theorem rootedIn_nil : rootedIn [] = 0 := rfl
@[simp] theorem unrootedIn_nil : unrootedIn [] = 0 := rfl

@[simp] theorem rootedIn_cons (m : Moment) (ms : List Moment) : rootedIn (m :: ms) = m.act.rooted + rootedIn ms := by
  simp [rootedIn]

@[simp] theorem unrootedIn_cons (m : Moment) (ms : List Moment) :
    unrootedIn (m :: ms) = m.act.unrooted + unrootedIn ms := by
  simp [unrootedIn]

@[simp] theorem rootedIn_append (ms ns : List Moment) : rootedIn (ms ++ ns) = rootedIn ms + rootedIn ns := by
  simp [rootedIn]

@[simp] theorem unrootedIn_append (ms ns : List Moment) : unrootedIn (ms ++ ns) = unrootedIn ms + unrootedIn ns := by
  simp [unrootedIn]

theorem unrootedIn_eq_zero {ms : List Moment} (finalizers : ∀ m ∈ ms, m.act.unroots = false) : unrootedIn ms = 0 := by
  induction ms with
  | nil => rfl
  | cons m ms ih =>
    rw [unrootedIn_cons, ih fun n hn => finalizers n (List.mem_cons_of_mem _ hn), add_zero]
    exact Act.unrooted_eq_zero (finalizers m List.mem_cons_self)

theorem notMem_unrootedIn {h : Handle} {ms : List Moment} (kept : ∀ m ∈ ms, h ∉ m.act.unrooted) :
    h ∉ unrootedIn ms := by
  induction ms with
  | nil => exact Multiset.notMem_zero h
  | cons m ms ih =>
    rw [unrootedIn_cons, Multiset.mem_add, not_or]
    exact ⟨kept m List.mem_cons_self, ih fun n hn => kept n (List.mem_cons_of_mem _ hn)⟩

end Moment

namespace Store

/-- The moments of a program, with `outer` held by those who wait for it. -/
def programMoments (callee : Handle → List Handle → Store → Handle × Store)
    (nested : List CellId → Handle → List Handle → Store → List Moment) (outer : List CellId) :
    Program → Running → List Moment
  | .done h, r => [⟨r.store, outer ++ r.held, .result h⟩]
  | .fail _, _ => []
  | .ask request next, r =>
    let within :=
      match request with
      | .call f args => nested (outer ++ r.held) f args r.store
      | _ => []
    let (reply, later) := r.answer callee request
    ⟨r.store, outer ++ r.held, .request request⟩ :: within ++ programMoments callee nested outer (next reply) later
  | .define path name captured body next, r =>
    let (h, later) := r.after (r.store.defineFunction path name (captured.filterMap (r.held[·]?)) body)
    programMoments callee nested outer (next h) later

/-- The moments of a call that may make calls `depth` levels deep. -/
def callMomentsWithin : Nat → List CellId → Handle → List Handle → Store → List Moment
  | 0, _, _, _, _ => []
  | depth + 1, outer, f, args, s =>
    let s := s.note .call
    match s.object? f with
    | some (.function _ captured body) =>
      programMoments (callWithin depth) (callMomentsWithin depth) outer (body args) ⟨s.retainAll captured, captured⟩
    | _ => []

/-- The moments of a call, with `outer` held by those who wait for it. -/
def callMoments (outer : List CellId) (f : Handle) (args : List Handle) (s : Store) : List Moment :=
  callMomentsWithin s.stack outer f args s

end Store

/-! ### Evolution along moments -/

namespace Ledger

/-- The ledger evolves through the moments of a list, and direct roots change only by the acts at them. -/
inductive Along : Ledger → List Moment → Ledger → Prop where
  | nil {s t : Store} {o o' : Multiset CellId} {r u : Multiset Handle} (last : Evolves ⟨s, o, r, u⟩ ⟨t, o', r, u⟩) :
      Along ⟨s, o, r, u⟩ [] ⟨t, o', r, u⟩
  | cons {s t : Store} {o o' : Multiset CellId} {r u : Multiset Handle} {m : Moment} {ms : List Moment} {L : Ledger}
      (before : Evolves ⟨s, o, r, u⟩ ⟨m.store, m.held, r, u⟩)
      (act : Evolves ⟨m.store, m.held, r, u⟩ ⟨t, o', m.act.rooted + r, m.act.unrooted + u⟩)
      (rest : Along ⟨t, o', m.act.rooted + r, m.act.unrooted + u⟩ ms L) : Along ⟨s, o, r, u⟩ (m :: ms) L

namespace Along

variable {L M N : Ledger} {ms ns : List Moment}

theorem evolves (along : Along L ms M) : Evolves L M := by
  induction along with
  | nil last => exact last
  | cons before act _ ih => exact before.trans (act.trans ih)

theorem rooted_eq (along : Along L ms M) : M.rooted = Moment.rootedIn ms + L.rooted := by
  induction along with
  | nil _ => simp
  | cons _ _ _ ih => rw [ih, Moment.rootedIn_cons]; simp only; abel

theorem unrooted_eq (along : Along L ms M) : M.unrooted = Moment.unrootedIn ms + L.unrooted := by
  induction along with
  | nil _ => simp
  | cons _ _ _ ih => rw [ih, Moment.unrootedIn_cons]; simp only; abel

theorem append (first : Along L ms M) (second : Along M ns N) : Along L (ms ++ ns) N := by
  induction first with
  | nil last =>
    cases second with
    | nil later => exact .nil (last.trans later)
    | cons before act rest => exact .cons (last.trans before) act rest
  | cons before act _ ih => exact .cons before act (ih second)

theorem of_evolves {s t : Store} {o o' : Multiset CellId} {r u : Multiset Handle}
    (e : Evolves ⟨s, o, r, u⟩ ⟨t, o', r, u⟩) : Along ⟨s, o, r, u⟩ [] ⟨t, o', r, u⟩ := .nil e

/-- A single moment. -/
theorem one {t : Store} {o : Multiset CellId} {r u : Multiset Handle} {m : Moment}
    (act : Evolves ⟨m.store, m.held, r, u⟩ ⟨t, o, m.act.rooted + r, m.act.unrooted + u⟩) :
    Along ⟨m.store, m.held, r, u⟩ [m] ⟨t, o, m.act.rooted + r, m.act.unrooted + u⟩ :=
  .cons (.refl _) act (.nil (.refl _))

/-- A moment at which nothing happens to the ledger. -/
theorem still {r u : Multiset Handle} {m : Moment} (rooted : m.act.rooted = 0) (unrooted : m.act.unrooted = 0) :
    Along ⟨m.store, m.held, r, u⟩ [m] ⟨m.store, m.held, r, u⟩ := by
  have along := one (m := m) (t := m.store) (o := m.held) (r := r) (u := u)
  rw [rooted, unrooted, zero_add, zero_add] at along
  exact along (.refl _)

theorem before {s t : Store} {o o' : Multiset CellId} {r u : Multiset Handle}
    (first : Evolves ⟨s, o, r, u⟩ ⟨t, o', r, u⟩) (along : Along ⟨t, o', r, u⟩ ms M) :
    Along ⟨s, o, r, u⟩ ms M := (of_evolves first).append along

theorem after {s t : Store} {o o' : Multiset CellId} {r u : Multiset Handle} (along : Along L ms ⟨s, o, r, u⟩)
    (last : Evolves ⟨s, o, r, u⟩ ⟨t, o', r, u⟩) : Along L ms ⟨t, o', r, u⟩ := by
  rw [← List.append_nil ms]
  exact along.append (of_evolves last)

/-- The ledger at a moment. -/
theorem at_moment {pre post : List Moment} {m : Moment} (along : Along L ms M) (split : ms = pre ++ m :: post) :
    Evolves L ⟨m.store, m.held, Moment.rootedIn pre + L.rooted, Moment.unrootedIn pre + L.unrooted⟩ := by
  induction along generalizing pre with
  | nil _ => simp at split
  | cons before act _ ih =>
    cases pre with
    | nil =>
      obtain ⟨rfl, rfl⟩ := List.cons.inj split
      simpa using before
    | cons n pre =>
      obtain ⟨rfl, rfl⟩ := List.cons.inj split
      have later := ih rfl
      rw [Moment.rootedIn_cons, Moment.unrootedIn_cons, add_comm (Act.rooted _), add_comm (Act.unrooted _), add_assoc,
        add_assoc]
      exact before.trans (act.trans later)

/-- What comes after a moment. -/
theorem from_moment {pre post : List Moment} {m : Moment} (along : Along L ms M) (split : ms = pre ++ m :: post) :
    ∃ t o, Evolves ⟨m.store, m.held, Moment.rootedIn pre + L.rooted, Moment.unrootedIn pre + L.unrooted⟩
        ⟨t, o, Moment.rootedIn (pre ++ [m]) + L.rooted, Moment.unrootedIn (pre ++ [m]) + L.unrooted⟩ ∧
      Along ⟨t, o, Moment.rootedIn (pre ++ [m]) + L.rooted, Moment.unrootedIn (pre ++ [m]) + L.unrooted⟩ post M := by
  induction along generalizing pre with
  | nil _ => simp at split
  | @cons s t o o' r u n ms M before act rest ih =>
    cases pre with
    | nil =>
      obtain ⟨rfl, rfl⟩ := List.cons.inj split
      exact ⟨t, o', by simpa using act, by simpa using rest⟩
    | cons k pre =>
      obtain ⟨rfl, rfl⟩ := List.cons.inj split
      obtain ⟨t', o'', step, later⟩ := ih rfl
      have shift : ∀ (ns : List Moment) (f : Moment → Multiset Handle) (x : Multiset Handle),
          (ns.map f).sum + (f n + x) = f n + (ns.map f).sum + x := by
        intro ns f x
        rw [← add_assoc, add_comm (f n)]
      simp only [Moment.rootedIn, Moment.unrootedIn, shift] at step later
      refine ⟨t', o'', ?_⟩
      simp only [Moment.rootedIn, Moment.unrootedIn, List.cons_append, List.map_cons, List.sum_cons]
      exact ⟨step, later⟩

/-- A later moment. -/
theorem later_moment {pre mid post : List Moment} {m later : Moment} (along : Along L ms M)
    (split : ms = pre ++ m :: (mid ++ later :: post)) :
    ∃ R, Evolves ⟨m.store, m.held, Moment.rootedIn pre + L.rooted, Moment.unrootedIn pre + L.unrooted⟩
      ⟨later.store, later.held, R, Moment.unrootedIn (pre ++ m :: mid) + L.unrooted⟩ := by
  obtain ⟨t, o, act, rest⟩ := along.from_moment split
  have same : Moment.unrootedIn (pre ++ m :: mid) + L.unrooted =
      Moment.unrootedIn mid + (Moment.unrootedIn (pre ++ [m]) + L.unrooted) := by
    simp only [Moment.unrootedIn_append, Moment.unrootedIn_cons, Moment.unrootedIn_nil]
    abel
  rw [same]
  exact ⟨_, act.trans (rest.at_moment rfl)⟩

end Along

end Ledger

end ForeignBridge
