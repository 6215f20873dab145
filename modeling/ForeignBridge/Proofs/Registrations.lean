import ForeignBridge.Proofs.Conversions
import ForeignBridge.Proofs.Paths
import ForeignBridge.Proofs.Tables
import ForeignBridge.Registration
import ForeignBridge.Registration.DirectCall

/-! # Registrations as moves

The registry and the direct calls hold the cells of what they recorded. What is recorded takes the place of what was
there under the same name, and the cells of that are released; so the cells held from outside are always those of the
tables. -/

namespace ForeignBridge

namespace Registry

/-- The constructors ascend by the names of their families. -/
def Ascends (r : Registry) : Prop := Keyed.Ascends r.families

theorem ascends_empty : empty.Ascends := Keyed.ascends_nil

theorem perm_record (t : TypeExpr) (c : CellId) (r : Registry) (s : Store) :
    ((r.cell? t).toList ++ (r.record t c s).1.cells).Perm (c :: r.cells) := by
  show ((r.types.lookup t).toList ++ (r.families.map (·.2.constructor) ++ (r.types.insert t c).map Prod.snd)).Perm
    (c :: (r.families.map (·.2.constructor) ++ r.types.map Prod.snd))
  have types := (Assoc.perm_insert t c r.types).append_left (r.families.map (·.2.constructor))
  exact (List.perm_append_comm_assoc _ _ _).trans (types.trans List.perm_middle)

theorem perm_recordFamily (t : Template) (c : CellId) {r : Registry} (s : Store) (ascends : r.Ascends) :
    ((r.families.get? t.family).toList.map RegisteredFamily.constructor ++ (r.recordFamily t c s).1.cells).Perm
      (c :: r.cells) := by
  have families := Keyed.perm_contents_insert (fun f : RegisteredFamily => [f.constructor]) ascends t.family ⟨t, c⟩
  have here : Keyed.contentsAt (fun f : RegisteredFamily => [f.constructor]) t.family r.families =
      (r.families.get? t.family).toList.map RegisteredFamily.constructor := by
    unfold Keyed.contentsAt
    cases r.families.get? t.family <;> rfl
  have all : ∀ table : Keyed RegisteredFamily,
      Keyed.contents (fun f : RegisteredFamily => [f.constructor]) table = table.map (·.2.constructor) := fun table =>
    (List.map_eq_flatMap ..).symm
  rw [here, all, all] at families
  have both := families.append_right (r.types.map Prod.snd)
  simp only [List.append_assoc, List.cons_append, List.nil_append] at both
  exact both

/-- Where registering a type ends. -/
inductive Ends (t : TypeExpr) (r : Registry) (s : Store) : Except RegistrationError Handle × Registry × Store → Prop
  | known {h : Handle} (found : r.lookup s t = some h) : Ends t r s (.ok h, r, s)
  | unknownFamily (new : r.lookup s t = none) (absent : r.families.get? t.name = none) :
      Ends t r s (.error (.unknownFamily t.name), r, s)
  | arityMismatch {f : RegisteredFamily} (new : r.lookup s t = none) (there : r.families.get? t.name = some f)
      (apart : t.params.length ≠ f.template.arity) :
      Ends t r s (.error (.arityMismatch t.name f.template.arity t.params.length), r, s)
  | refused {f : RegisteredFamily} {e : RegistrationError} (new : r.lookup s t = none)
      (there : r.families.get? t.name = some f) (arity : t.params.length = f.template.arity)
      (refused : r.parameters s t t.params = .error e) : Ends t r s (.error e, r, s)
  | faulted {f : RegisteredFamily} {hs : List Handle} {b : BridgeError} {s' : Store} (new : r.lookup s t = none)
      (there : r.families.get? t.name = some f) (arity : t.params.length = f.template.arity)
      (given : r.parameters s t t.params = .ok hs)
      (crossed : s.crossing (Store.applyFamily (s.read f.constructor) hs) = (.error b, s')) :
      Ends t r s (.error (.bridge b), r, s')
  | made {f : RegisteredFamily} {hs : List Handle} {h : Handle} {s' : Store} (new : r.lookup s t = none)
      (there : r.families.get? t.name = some f) (arity : t.params.length = f.template.arity)
      (given : r.parameters s t t.params = .ok hs)
      (crossed : s.crossing (Store.applyFamily (s.read f.constructor) hs) = (.ok h, s')) :
      Ends t r s (.ok h, r.record t (s'.hold h).1 (s'.hold h).2)

theorem ends_instantiate (t : TypeExpr) (r : Registry) (s : Store) : Ends t r s (r.instantiate t s) := by
  unfold instantiate
  split
  · next found => exact .known found
  · next new =>
    split
    · next absent => exact .unknownFamily new absent
    · next there =>
      split
      · next apart => exact .arityMismatch new there apart
      · next fits =>
        have arity := of_not_not fits
        split
        · next refused => exact .refused new there arity refused
        · next given =>
          split
          · next crossed => exact .faulted new there arity given crossed
          · next crossed => exact .made new there arity given crossed

end Registry

namespace Ledger

variable {s : Store} {o : Multiset CellId} {R U : Multiset Handle}

/-! ### Crossings -/

theorem crossing_snd {α : Type} (f : Store → α × Store) (s : Store) : (s.crossing f).2 = (f s).2.takeFault.2 := by
  unfold Store.crossing
  dsimp only
  split <;> simp_all

theorem crossing_fst {α : Type} {f : Store → α × Store} {s : Store} {a : α} (ok : (s.crossing f).1 = .ok a) :
    a = (f s).1 := by
  unfold Store.crossing at ok
  dsimp only at ok
  split at ok
  · exact (Except.ok.inj ok).symm
  · cases ok

/-- Looking for a fault changes at most the fault and the log, and may halt the store. -/
theorem apply_takeFault {α : Sort*} (view : Store → α)
    (blind : ∀ s fault log halted, view { s with fault, log, halted } = view s) (s : Store) :
    view s.takeFault.2 = view s := by
  unfold Store.takeFault
  dsimp only [Store.pendingFault]
  split
  · exact blind s _ _ _
  · unfold Store.describe
    dsimp only
    split <;> exact blind s _ _ _

/-- What a crossing hands on was there when the fault was looked for. -/
theorem issued_crossing {f : Store → Handle × Store} {h : Handle} {t : Store} (issued : (f s).2.Issued (f s).1)
    (ok : s.crossing f = (.ok h, t)) : t.Issued h := by
  have snd := crossing_snd f s
  rw [ok] at snd
  rw [crossing_fst (congrArg Prod.fst ok), show t = _ from snd]
  unfold Store.Issued
  rw [apply_takeFault Store.lastId fun _ _ _ _ => rfl]
  exact issued

theorem moves_crossing {α : Type} {f : Store → α × Store} (moves : Moves ⟨s, o, R, U⟩ ⟨(f s).2, o, R, U⟩) :
    Moves ⟨s, o, R, U⟩ ⟨(s.crossing f).2, o, R, U⟩ := by
  rw [crossing_snd]
  exact moves.trans moves_takeFault

/-! ### The registry -/

/-- What is displaced is released. -/
theorem moves_displace {c : CellId} {before displaced : List CellId} (after : List CellId)
    (perm : (displaced ++ after).Perm (c :: before)) : Moves ⟨s, c ::ₘ (before + o), R, U⟩
      ⟨s.releaseAll displaced, after + o, R, U⟩ := by
  have same : c ::ₘ ((before : Multiset CellId) + o) = displaced + (after + o) := by
    rw [← Multiset.cons_add, Multiset.cons_coe, ← Multiset.coe_eq_coe.mpr perm, ← Multiset.coe_add, add_assoc]
  rw [same]
  exact moves_releaseAll displaced

theorem moves_record (t : TypeExpr) (c : CellId) (r : Registry) :
    Moves ⟨s, c ::ₘ (r.cells + o), R, U⟩ ⟨(r.record t c s).2, (r.record t c s).1.cells + o, R, U⟩ :=
  moves_displace _ (Registry.perm_record t c r s)

theorem moves_recordFamily (t : Template) (c : CellId) {r : Registry} (ascends : r.Ascends) :
    Moves ⟨s, c ::ₘ (r.cells + o), R, U⟩ ⟨(r.recordFamily t c s).2, (r.recordFamily t c s).1.cells + o, R, U⟩ :=
  moves_displace _ (Registry.perm_recordFamily t c s ascends)

/-- What the registry finds in the store was handed out. -/
structure Finds (r : Registry) (s : Store) : Prop where
  types : ∀ t h, r.lookup s t = some h → s.Issued h
  constructors : ∀ name family, r.families.get? name = some family → s.Issued (s.read family.constructor)
  families : ∀ name h, s.family? name = some h → s.Issued h
  applied : ∀ head params h, s.applied? head params = some h → s.Issued h

theorem Sound.finds (sound : Sound ⟨s, o, R, U⟩) (r : Registry) : Finds r s where
  types t h found := by
    obtain ⟨c, _, rfl⟩ := Option.map_eq_some_iff.mp found
    exact sound.issued_read c
  constructors _ family _ := sound.issued_read family.constructor
  families _ _ found := issued_family? sound.closed found
  applied _ _ _ found := issued_applied? sound.closed found

theorem moves_addFamily (t : Template) {r : Registry} (finds : Finds r s) (ascends : r.Ascends) :
    Moves ⟨s, r.cells + o, R, U⟩ ⟨(r.addFamily t s).2.2, (r.addFamily t s).2.1.cells + o, R, U⟩ ∧
      (r.addFamily t s).2.1.Ascends := by
  unfold Registry.addFamily
  split
  · exact ⟨.refl _, ascends⟩
  · split
    · exact ⟨.refl _, ascends⟩
    · split
      · exact ⟨.refl _, ascends⟩
      · next h found =>
        have held : Moves ⟨s, r.cells + o, R, U⟩ ⟨(s.hold h).2, (s.hold h).1 ::ₘ (r.cells + o), R, U⟩ :=
          moves_hold (finds.families _ h found)
        dsimp only
        generalize s.hold h = made at held ⊢
        obtain ⟨c, s'⟩ := made
        dsimp only at held ⊢
        split
        · have shared := (Move.retain s' (c ::ₘ (r.cells + o)) R U c
            (Multiset.mem_add.mpr (.inl (Multiset.mem_cons_self _ _)))).moves
          have recorded := moves_record (s := s'.retain c) (o := c ::ₘ o) (R := R) (U := U) (.concrete t.family) c r
          simp only [Multiset.add_cons] at recorded
          exact ⟨(held.trans shared).trans (recorded.trans (moves_recordFamily t c ascends)), ascends.insert _ _⟩
        · exact ⟨held.trans (moves_recordFamily t c ascends), ascends.insert _ _⟩

theorem issued_parameters {r : Registry} (finds : Finds r s) (t : TypeExpr) :
    ∀ (params : List TypeExpr) {hs : List Handle}, r.parameters s t params = .ok hs → ∀ h ∈ hs, s.Issued h
  | [], hs, ok, h, hh => by
      obtain rfl := Except.ok.inj ok
      cases hh
  | p :: ps, hs, ok, h, hh => by
      unfold Registry.parameters at ok
      split at ok
      · cases ok
      · next k found =>
        split at ok
        · next ks rest =>
          obtain rfl := Except.ok.inj ok
          rcases List.mem_cons.mp hh with rfl | hh
          · exact finds.types p h found
          · exact issued_parameters finds t ps rest h hh
        · cases ok

theorem moves_instantiate (t : TypeExpr) {r : Registry} (finds : Finds r s) (ascends : r.Ascends) :
    Moves ⟨s, r.cells + o, R, U⟩ ⟨(r.instantiate t s).2.2, (r.instantiate t s).2.1.cells + o, R, U⟩ ∧
    (r.instantiate t s).2.1.Ascends ∧
    ∀ h, (r.instantiate t s).1 = .ok h → (r.instantiate t s).2.2.Issued h := by
  have applied {f : RegisteredFamily} {hs : List Handle} (there : r.families.get? t.name = some f)
      (given : r.parameters s t t.params = .ok hs) : Moves ⟨s, r.cells + o, R, U⟩
        ⟨(s.crossing (Store.applyFamily (s.read f.constructor) hs)).2, r.cells + o, R, U⟩ :=
    moves_crossing (moves_applyFamily (finds.constructors _ f there) (issued_parameters finds t _ given))
  have ends := r.ends_instantiate t s
  generalize r.instantiate t s = result at ends ⊢
  cases ends with
  | known found => exact ⟨.refl _, ascends, fun a ok => Except.ok.inj ok ▸ finds.types t _ found⟩
  | unknownFamily | arityMismatch | refused => exact ⟨.refl _, ascends, fun a ok => by cases ok⟩
  | faulted _ there _ given crossed =>
    have moved := applied there given
    rw [crossed] at moved
    exact ⟨moved, ascends, fun a ok => by cases ok⟩
  | @made f hs h s' _ there _ given crossed =>
    have moved := applied there given
    rw [crossed] at moved
    have issued := issued_crossing (issued_applyFamily (finds.constructors _ f there) (finds.applied _ _)) crossed
    have held : Moves ⟨s', r.cells + o, R, U⟩ ⟨(s'.hold h).2, (s'.hold h).1 ::ₘ (r.cells + o), R, U⟩ := moves_hold issued
    have recorded := held.trans (moves_record t (s'.hold h).1 r)
    exact ⟨moved.trans recorded, ascends, fun a ok => Except.ok.inj ok ▸ recorded.issued issued⟩

/-! ### Both passes -/

open Registration (Progress)

theorem moves_tryFamily (t : Template) {p : Progress} (finds : Finds p.registry p.store)
    (ascends : p.registry.Ascends) :
    Moves ⟨p.store, p.registry.cells + o, R, U⟩
      ⟨(Registration.tryFamily t p).store, (Registration.tryFamily t p).registry.cells + o, R, U⟩ ∧
    (Registration.tryFamily t p).registry.Ascends := by
  have added := moves_addFamily (s := p.store) (o := o) (R := R) (U := U) t finds ascends
  unfold Registration.tryFamily
  generalize p.registry.addFamily t p.store = result at added ⊢
  obtain ⟨outcome, registry, s'⟩ := result
  cases outcome with
  | error e => exact added
  | ok done => exact added

theorem moves_registerFamilies (templates : List Template) (order : List String) : ∀ {p : Progress},
    p.registry.Ascends → Sound ⟨p.store, p.registry.cells + o, R, U⟩ →
    Moves ⟨p.store, p.registry.cells + o, R, U⟩ ⟨(Registration.registerFamilies templates order p).store,
      (Registration.registerFamilies templates order p).registry.cells + o, R, U⟩ ∧
    (Registration.registerFamilies templates order p).registry.Ascends := by
  induction order with
  | nil => exact fun ascends _ => ⟨.refl _, ascends⟩
  | cons name order ih =>
    intro p ascends sound
    unfold Registration.registerFamilies
    rw [List.foldl_cons]
    cases templates.reverse.find? (·.family == name) with
    | none => exact ih ascends sound
    | some t =>
      obtain ⟨first, ascends'⟩ := moves_tryFamily (o := o) (R := R) (U := U) t (sound.finds _) ascends
      obtain ⟨rest, last⟩ := ih ascends' (first.sound sound)
      exact ⟨first.trans rest, last⟩

theorem moves_tryInstance (i : Registration.Pending) {p : Progress} (ascends : p.registry.Ascends)
    (sound : Sound ⟨p.store, p.registry.cells + o, R, U⟩) :
    Moves ⟨p.store, p.registry.cells + o, R, U⟩
      ⟨(Registration.tryInstance p i).store, (Registration.tryInstance p i).registry.cells + o, R, U⟩ ∧
    (Registration.tryInstance p i).registry.Ascends := by
  unfold Registration.tryInstance
  split
  · split <;> exact ⟨.refl _, ascends⟩
  · obtain ⟨moves, ascends', _⟩ := moves_instantiate i.type (sound.finds p.registry) ascends
    generalize p.registry.instantiate i.type p.store = result at moves ascends' ⊢
    obtain ⟨outcome, registry, s'⟩ := result
    cases outcome with
    | error e => exact ⟨moves, ascends'⟩
    | ok made => exact ⟨moves, ascends'⟩

theorem moves_instances (instances : List Registration.Pending) : ∀ {p : Progress}, p.registry.Ascends →
    Sound ⟨p.store, p.registry.cells + o, R, U⟩ →
    Moves ⟨p.store, p.registry.cells + o, R, U⟩ ⟨(instances.foldl Registration.tryInstance p).store,
      (instances.foldl Registration.tryInstance p).registry.cells + o, R, U⟩ ∧
    (instances.foldl Registration.tryInstance p).registry.Ascends := by
  induction instances with
  | nil => exact fun ascends _ => ⟨.refl _, ascends⟩
  | cons i instances ih =>
    intro p ascends sound
    obtain ⟨first, ascends'⟩ := moves_tryInstance i ascends sound
    obtain ⟨rest, last⟩ := ih ascends' (first.sound sound)
    exact ⟨first.trans rest, last⟩

/-- **Registration hands back the cells of the registry it builds.** -/
theorem moves_registerAll (templates : List Template) (settings : RegistrationSettings)
    (sound : Sound ⟨s, o, R, U⟩) :
    Moves ⟨s, o, R, U⟩ ⟨(Registration.registerAll templates settings s).store,
      (Registration.registerAll templates settings s).registry.cells + o, R, U⟩ ∧
    (Registration.registerAll templates settings s).registry.Ascends := by
  have none : ((Registry.empty.cells : List CellId) : Multiset CellId) + o = o := zero_add o
  unfold Registration.registerAll
  dsimp only
  generalize start : Progress.mk Registry.empty s [] _ = p
  have store : p.store = s := by rw [← start]
  have registry : p.registry = .empty := by rw [← start]
  have ascends : p.registry.Ascends := registry ▸ Registry.ascends_empty
  have started : Sound ⟨p.store, p.registry.cells + o, R, U⟩ := by rwa [store, registry, none]
  obtain ⟨families, ascends'⟩ := moves_registerFamilies (o := o) (R := R) (U := U)
    (Registration.kept templates settings) (Placement.ofTemplates (Registration.kept templates settings)).order ascends
    started
  rw [store, registry, none] at families
  obtain ⟨instances, last⟩ := moves_instances
    (Registration.accepted (Registration.requests templates settings)) ascends' (families.sound sound)
  exact ⟨families.trans instances, last⟩

theorem gives_register (b : Bridge) (settings : RegistrationSettings) (sound : Sound ⟨s, o, R, U⟩) :
    Gives s o R U (fun done => done.registry.cells) (b.register settings s) ∧
      ∀ done, (b.register settings s).1 = .ok done → done.registry.Ascends := by
  unfold Bridge.register
  split
  · exact ⟨.error (.refl _), fun done ok => by cases ok⟩
  · obtain ⟨moves, ascends⟩ := moves_registerAll Catalog.templates settings sound
    refine ⟨moves, fun done ok => ?_⟩
    obtain rfl := Except.ok.inj ok
    exact ascends

/-! ### Direct calls -/

theorem issued_walk (closed : s.Closed) : ∀ (parts : List String) {parent h : Handle}, s.Issued parent →
    s.walk parent parts = some h → s.Issued h
  | [], parent, h, known, found => by
      obtain rfl := Option.some.inj found
      exact known
  | name :: rest, parent, h, known, found => by
      unfold Store.walk at found
      split at found
      · cases found
      · split at found
        · cases found
        · next child entered =>
          have member := (Option.filter_eq_some_iff.mp entered).1
          exact issued_walk closed rest (issued_member? closed member) found

theorem issued_resolveModule (closed : s.Closed) {path : String} {m : ModuleRef}
    (found : s.resolveModule path = .ok m) : s.Issued m.handle := by
  unfold Store.resolveModule at found
  split at found
  · next h walked =>
    obtain rfl := Except.ok.inj found
    exact issued_walk closed _ closed.main walked
  · cases found

theorem issued_resolveMember (closed : s.Closed) {m : ModuleRef} {name : String} {h : Handle}
    (found : s.resolveMember m name = .ok h) : s.Issued h := by
  unfold Store.resolveMember at found
  split at found
  · next k member =>
    obtain rfl := Except.ok.inj found
    exact issued_member? closed member
  · cases found

/-- A function that was found is live. -/
theorem object?_resolveFunction {path : String} {h : Handle} (found : s.resolveFunction path = .ok h) :
    ∃ name captured body, s.object? h = some (.function name captured body) := by
  obtain ⟨_, _, _, object⟩ := Store.resolveFunction_eq_ok.mp found
  exact object

theorem issued_resolveFunction {path : String} {h : Handle} (found : s.resolveFunction path = .ok h) : s.Issued h := by
  obtain ⟨name, captured, body, object⟩ := object?_resolveFunction found
  exact Store.issued_of_object? object

/-- The cell of a direct call. -/
def callCells (call : DirectCall) : List CellId := [call.function.cell]

theorem contents_calls (calls : DirectCalls) : Keyed.contents callCells calls.calls = calls.cells :=
  (List.map_eq_flatMap ..).symm

theorem gives_bindCall (r : Registry) (spec : DirectCallSpec) :
    Gives s o R U callCells (DirectCalls.bind r spec s) := by
  unfold DirectCalls.bind
  split
  · exact Gives.error (.refl _)
  · split
    · exact Gives.error (.refl _)
    · next h found =>
      exact Gives.one (moves_hold (issued_resolveFunction found)) rfl

theorem moves_addCall (r : Registry) (spec : DirectCallSpec) {calls : DirectCalls}
    (ascends : Keyed.Ascends calls.calls) : Moves ⟨s, calls.cells + o, R, U⟩
      ⟨(DirectCalls.add r (calls, s) spec).2, (DirectCalls.add r (calls, s) spec).1.cells + o, R, U⟩ ∧
    Keyed.Ascends (DirectCalls.add r (calls, s) spec).1.calls := by
  have bound := gives_bindCall (s := s) (o := calls.cells + o) (R := R) (U := U) r spec
  unfold DirectCalls.add
  dsimp only
  split
  · next call s' made =>
    have held := bound.of_ok made
    refine ⟨held.trans ?_, ascends.insert _ _⟩
    have perm := Keyed.perm_contents_insert callCells ascends spec.name call
    have here : Keyed.contentsAt callCells spec.name calls.calls =
        (calls.calls.get? spec.name).toList.map (·.function.cell) := by
      unfold Keyed.contentsAt
      cases calls.calls.get? spec.name <;> rfl
    rw [here, contents_calls] at perm
    have displaced := moves_displace (s := s') (o := o) (R := R) (U := U) (c := call.function.cell)
      (DirectCalls.cells ⟨calls.calls.insert spec.name call, calls.failures⟩) (by rwa [← contents_calls])
    rw [← Multiset.singleton_add, ← Multiset.coe_singleton] at displaced
    exact displaced
  · next e s' failed => exact ⟨bound.of_error failed, ascends⟩

theorem moves_ofSpecs (r : Registry) (specs : List DirectCallSpec) :
    Moves ⟨s, o, R, U⟩ ⟨(DirectCalls.ofSpecs r specs s).2, (DirectCalls.ofSpecs r specs s).1.cells + o, R, U⟩ ∧
    Keyed.Ascends (DirectCalls.ofSpecs r specs s).1.calls := by
  have all : ∀ (specs : List DirectCallSpec) (calls : DirectCalls) {s : Store}, Keyed.Ascends calls.calls →
      Moves ⟨s, calls.cells + o, R, U⟩ ⟨(specs.foldl (DirectCalls.add r) (calls, s)).2,
        (specs.foldl (DirectCalls.add r) (calls, s)).1.cells + o, R, U⟩ ∧
      Keyed.Ascends (specs.foldl (DirectCalls.add r) (calls, s)).1.calls := by
    intro specs
    induction specs with
    | nil => exact fun _ _ ascends => ⟨.refl _, ascends⟩
    | cons spec specs ih =>
      intro calls s ascends
      obtain ⟨first, ascends'⟩ := moves_addCall (s := s) (o := o) (R := R) (U := U) r spec ascends
      obtain ⟨rest, last⟩ := ih _ ascends'
      exact ⟨first.trans rest, last⟩
  have none : ((DirectCalls.empty.cells : List CellId) : Multiset CellId) + o = o := zero_add o
  have built := all specs .empty (s := s) Keyed.ascends_nil
  rwa [none] at built

end Ledger

end ForeignBridge
