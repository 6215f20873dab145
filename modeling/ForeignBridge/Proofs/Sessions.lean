import ForeignBridge.Proofs.Actions

/-! # The ledger of a session

A session holds the cells of its variables, its registry and its direct calls, and those that the running step keeps
(`holdings`). `At L ms s pending` says that the ledger of the session evolved from `L` through the moments `ms`, where
`pending` are cells that are on their way to a holder.

Resolving the inputs of a step makes cells and keeps them. Nothing else changes (`Extends`), and what is resolved
refers only to cells that are kept and to handles that were handed out. -/

namespace ForeignBridge

namespace Session

/-- The handles in a binding, besides those behind its cells. -/
def Binding.handles : Binding → List Handle
  | .handle h => [h]
  | .module m => [m.handle]
  | _ => []

/-- The cells that a session holds, as often as it holds them. -/
def holdings (s : Session) : List CellId :=
  Keyed.contents Binding.cells s.bindings ++ s.registry.cells ++ s.calls.cells ++ s.temporaries

/-- The tables of a session ascend, and the handles in its variables were handed out. -/
structure Tidy (s : Session) : Prop where
  bindings : Keyed.Ascends s.bindings
  registry : s.registry.Ascends
  calls : Keyed.Ascends s.calls.calls
  known : ∀ e ∈ s.bindings, ∀ h ∈ e.2.handles, s.store.Issued h

/-- The ledger of a session with pending cells. -/
def ledger (s : Session) (pending : Multiset CellId) (R U : Multiset Handle) : Ledger :=
  ⟨s.store, pending + s.holdings, R, U⟩

/-- The session is reached from a ledger through moments. -/
structure At (L : Ledger) (ms : List Moment) (s : Session) (pending : Multiset CellId) : Prop where
  start : L.Sound
  along : ∃ R U, L.Along ms (s.ledger pending R U)
  tidy : s.Tidy

/-- What resolving inputs may do: the store changes and more cells are kept. -/
structure Extends (s t : Session) : Prop where
  bindings : t.bindings = s.bindings
  kept : s.temporaries ⊆ t.temporaries
  last : s.store.lastId ≤ t.store.lastId

namespace Extends

variable {s t w : Session}

theorem refl (s : Session) : s.Extends s := ⟨rfl, List.Subset.refl _, le_rfl⟩

theorem trans (first : s.Extends t) (second : t.Extends w) : s.Extends w :=
  ⟨second.bindings.trans first.bindings, List.Subset.trans first.kept second.kept, first.last.trans second.last⟩

theorem issued (grown : s.Extends t) {h : Handle} (issued : s.store.Issued h) : t.store.Issued h :=
  issued.mono grown.last

end Extends

namespace At

variable {L : Ledger} {ms : List Moment} {s : Session} {p q : Multiset CellId}

theorem sound (at' : At L ms s p) : ∃ R U, (s.ledger p R U).Sound := by
  obtain ⟨R, U, along⟩ := at'.along
  exact ⟨R, U, along.evolves.sound at'.start⟩

theorem closed (at' : At L ms s p) : s.store.Closed := by
  obtain ⟨R, U, sound⟩ := at'.sound
  exact sound.closed

theorem issued_read (at' : At L ms s p) (c : CellId) : s.store.Issued (s.store.read c) := by
  obtain ⟨R, U, sound⟩ := at'.sound
  exact sound.issued_read c

/-- The store evolves; the pending cells change with it. -/
theorem change (at' : At L ms s p) {t : Store}
    (moves : ∀ R U, (s.ledger p R U).Sound → Ledger.Evolves (s.ledger p R U) ⟨t, q + s.holdings, R, U⟩) :
    At L ms { s with store := t } q := by
  obtain ⟨R, U, along⟩ := at'.along
  have evolves := moves R U (along.evolves.sound at'.start)
  refine ⟨at'.start, ⟨R, U, along.after evolves⟩, at'.tidy.bindings, at'.tidy.registry, at'.tidy.calls, ?_⟩
  exact fun e he h hh => evolves.issued (at'.tidy.known e he h hh)

/-- Pending cells are kept by the step. -/
theorem keep {cells : List CellId} (at' : At L ms s (cells + p)) :
    At L ms { s with temporaries := s.temporaries ++ cells } p := by
  refine ⟨at'.start, ?_, at'.tidy.bindings, at'.tidy.registry, at'.tidy.calls, at'.tidy.known⟩
  obtain ⟨R, U, along⟩ := at'.along
  refine ⟨R, U, ?_⟩
  have same : ledger { s with temporaries := s.temporaries ++ cells } p R U = s.ledger (cells + p) R U := by
    show Ledger.mk s.store (p + ((_ ++ (s.temporaries ++ cells) : List CellId) : Multiset CellId)) R U = _
    unfold ledger holdings
    rw [← List.append_assoc, ← Multiset.coe_add, add_comm (Multiset.ofList cells), add_assoc,
      add_comm (Multiset.ofList cells)]
  rw [same]
  exact along

end At

/-! ### Inputs -/

/-- The handles that an input names by their numbers. -/
def HandleInput.numbers : HandleInput → List Handle
  | .number h => [h]
  | .named _ => []

/-- The handles that a reference names by their numbers. -/
def ReferenceInput.numbers : ReferenceInput → List Handle
  | .fresh h => h.numbers
  | .splice _ => []

/-- The handles that a value names by their numbers. -/
def valueNumbers (v : ValueInput) : List Handle := v.references.flatMap ReferenceInput.numbers

/-- The handles that data names by their numbers. -/
def DatumInput.numbers : DatumInput → List Handle
  | .plain data => data.handles ++ data.references.flatMap ReferenceInput.numbers
  | .array items => items.flatMap HandleInput.numbers
  | .dict pairs => pairs.flatMap fun kv => kv.1.numbers ++ kv.2.numbers

/-- The handles that a function names by their numbers. -/
def FunctionInput.numbers : FunctionInput → List Handle
  | .constant h => h.numbers
  | .copying data => data.numbers
  | .raiseThen data h => data.numbers ++ h.numbers
  | .making type _ => type.numbers
  | _ => []

namespace Action

variable {α : Type} {L : Ledger} {ms : List Moment} {s : Session}

/-- The action resolves an input into something that is good. -/
def Resolves (L : Ledger) (ms : List Moment) (s : Session) (P : α → Session → Prop) (a : Action α) : Prop :=
  Ensures a s (fun s' => At L ms s' 0) fun x s' => At L ms s' 0 ∧ s.Extends s' ∧ P x s'

/-- A value whose cells the step keeps. -/
def Kept (v : Value CellId) (s : Session) : Prop := ∀ c ∈ v.references, c ∈ s.temporaries

/-- Data whose cells the step keeps, and whose handles were handed out. -/
def KeptDatum (data : Datum CellId) (s : Session) : Prop :=
  (∀ c ∈ data.references, c ∈ s.temporaries) ∧ ∀ h ∈ data.handles, s.store.Issued h

theorem resolves_pure {P : α → Session → Prop} {x : α} (at' : At L ms s 0) (good : P x s) :
    Resolves L ms s P (pure x) := ensures_pure ⟨at', .refl s, good⟩

theorem resolves_throw {P : α → Session → Prop} {e : StepError} (at' : At L ms s 0) :
    Resolves L ms s P (throw e : Action α) := ensures_throw at'

theorem resolves_bind {β : Type} {P : α → Session → Prop} {Q : β → Session → Prop} {a : Action α} {f : α → Action β}
    (first : Resolves L ms s P a)
    (second : ∀ x s', At L ms s' 0 → s.Extends s' → P x s' → Resolves L ms s' Q (f x)) :
    Resolves L ms s Q (a >>= f) := by
  apply ensures_bind
  refine first.imp (fun _ h => h) fun x s' ⟨at', grown, good⟩ => ?_
  refine (second x s' at' grown good).imp (fun _ h => h) fun y s'' ⟨at'', grown', good'⟩ => ?_
  exact ⟨at'', grown.trans grown', good'⟩

theorem resolves_lookup (name : String) (at' : At L ms s 0) :
    Resolves L ms s (fun b s' => s' = s ∧ (name, b) ∈ s.bindings) (lookup name) := by
  unfold lookup
  apply ensures_bind
  apply ensures_get
  split
  · next b found => exact resolves_pure at' ⟨rfl, Keyed.mem_of_get? found⟩
  · exact resolves_throw at'

theorem resolves_handle (input : HandleInput) (at' : At L ms s 0) (passes : ∀ h ∈ input.numbers, s.store.Issued h) :
    Resolves L ms s (fun h s' => s'.store.Issued h) (handle input) := by
  cases input with
  | number h => exact resolves_pure at' (passes h List.mem_cons_self)
  | named name =>
    apply resolves_bind (resolves_lookup name at')
    rintro b s' at' - ⟨rfl, found⟩
    apply ensures_bind
    apply ensures_get
    split
    · next h here =>
      refine resolves_pure at' ?_
      cases b with
      | handle k =>
        obtain rfl := Option.some.inj here
        exact at'.tidy.known _ found k List.mem_cons_self
      | module m =>
        obtain rfl := Option.some.inj here
        exact at'.tidy.known _ found m.handle List.mem_cons_self
      | cell c =>
        obtain rfl := Option.some.inj here
        exact at'.issued_read c
      | value v =>
        obtain ⟨c, _, rfl⟩ := Option.map_eq_some_iff.mp here
        exact at'.issued_read c
      | answer a => cases here
    · exact resolves_throw at'

theorem resolves_mapM {β : Type} {P : β → Session → Prop} {f : α → Action β}
    (stable : ∀ {x s s'}, P x s → s.Extends s' → P x s') (xs : List α) (at' : At L ms s 0)
    (each : ∀ x ∈ xs, ∀ s', At L ms s' 0 → s.Extends s' → Resolves L ms s' P (f x)) :
    Resolves L ms s (fun ys s' => ∀ y ∈ ys, P y s') (xs.mapM f) := by
  have all := ensures_mapM (I := fun s' => At L ms s' 0 ∧ s.Extends s') (P := P) (E := fun s' => At L ms s' 0)
    Extends.refl Extends.trans stable xs (s := s) (f := f) ?_ ⟨at', .refl s⟩
  · exact all.imp (fun _ h => h) fun ys s' ⟨⟨at'', _⟩, grown, good⟩ => ⟨at'', grown, good⟩
  · rintro x hx s' ⟨at'', grown⟩
    refine (each x hx s' at'' grown).imp (fun _ h => h) fun y s'' ⟨at₂, grown₂, good⟩ => ?_
    exact ⟨⟨at₂, grown.trans grown₂⟩, grown₂, good⟩

theorem resolves_handles (inputs : List HandleInput) (at' : At L ms s 0)
    (passes : ∀ h ∈ inputs.flatMap HandleInput.numbers, s.store.Issued h) :
    Resolves L ms s (fun hs s' => ∀ h ∈ hs, s'.store.Issued h) (inputs.mapM handle) := by
  apply resolves_mapM (P := fun h s' => s'.store.Issued h) (fun issued grown => grown.issued issued) inputs at'
  intro input hi s' at' grown
  exact resolves_handle input at' fun h hh => grown.issued (passes h (List.mem_flatMap.mpr ⟨input, hi, hh⟩))

/-! ### Values and data -/

/-- A reference that can be made into a cell: the handle was handed out, or a variable holds the cell. -/
def Origin.Good (s : Session) : Origin → Prop
  | .fresh h => s.store.Issued h
  | .shared c => c ∈ Keyed.contents Binding.cells s.bindings

theorem Origin.Good.mono {o : Origin} {s t : Session} (good : o.Good s) (grown : s.Extends t) : o.Good t := by
  cases o with
  | fresh h => exact grown.issued good
  | shared c =>
    unfold Origin.Good at good ⊢
    rwa [grown.bindings]

/-- All references of a value can be made into cells. -/
def Found (v : Value Origin) (s : Session) : Prop := ∀ o ∈ v.references, o.Good s

theorem mem_contents {b : Binding} {name : String} (found : (name, b) ∈ s.bindings) {c : CellId} (hc : c ∈ b.cells) :
    c ∈ Keyed.contents Binding.cells s.bindings := List.mem_flatMap.mpr ⟨(name, b), found, hc⟩

theorem resolves_origin (input : ReferenceInput) (at' : At L ms s 0) (passes : ∀ h ∈ input.numbers, s.store.Issued h) :
    Resolves L ms s Found (origin input) := by
  cases input with
  | fresh h =>
    apply resolves_bind (resolves_handle h at' passes)
    intro k s' at' _ issued
    refine resolves_pure at' fun o ho => ?_
    obtain rfl := List.mem_singleton.mp ho
    exact issued
  | splice name =>
    apply resolves_bind (resolves_lookup name at')
    rintro b s' at' - ⟨rfl, found⟩
    cases b with
    | handle h =>
      refine resolves_pure at' fun o ho => ?_
      obtain rfl := List.mem_singleton.mp ho
      exact at'.tidy.known _ found h List.mem_cons_self
    | module m =>
      refine resolves_pure at' fun o ho => ?_
      obtain rfl := List.mem_singleton.mp ho
      exact at'.tidy.known _ found m.handle List.mem_cons_self
    | cell c =>
      refine resolves_pure at' fun o ho => ?_
      obtain rfl := List.mem_singleton.mp ho
      exact mem_contents found List.mem_cons_self
    | value v =>
      refine resolves_pure at' fun o ho => ?_
      rw [Value.references_map] at ho
      obtain ⟨c, hc, rfl⟩ := List.mem_map.mp ho
      exact mem_contents found hc
    | answer a => exact resolves_throw at'

mutual

theorem resolves_resolve : ∀ (v : ValueInput) {s : Session}, At L ms s 0 → (∀ h ∈ valueNumbers v, s.store.Issued h) →
    Resolves L ms s Found (resolve v)
  | .nil, s, at', _ | .bool _, s, at', _ | .int _, s, at', _ | .float _, s, at', _ | .str _, s, at', _
  | .symbol _, s, at', _ => by
      unfold resolve
      exact resolves_pure at' fun o ho => by cases ho
  | .list items, s, at', passes => by
      unfold resolve
      apply resolves_bind (resolves_resolveItems items at' passes)
      exact fun vs s' at' _ found => resolves_pure at' found
  | .record fields, s, at', passes => by
      unfold resolve
      apply resolves_bind (resolves_resolveFields fields at' passes)
      exact fun vs s' at' _ found => resolves_pure at' found
  | .foreign r, s, at', passes => by
      unfold resolve
      exact resolves_origin r at' fun h hh => passes h (List.mem_flatMap.mpr ⟨r, List.mem_cons_self, hh⟩)
  | .function (.fresh k) auto, s, at', passes => by
      unfold resolve
      apply resolves_bind (resolves_handle k at' fun h hh =>
        passes h (List.mem_flatMap.mpr ⟨.fresh k, List.mem_cons_self, hh⟩))
      intro k' s' at' _ issued
      refine resolves_pure at' fun o ho => ?_
      obtain rfl := List.mem_singleton.mp ho
      exact issued
  | .function (.splice name) auto, s, at', _ => by
      unfold resolve
      exact resolves_throw at'

theorem resolves_resolveItems : ∀ (items : List ValueInput) {s : Session}, At L ms s 0 →
    (∀ h ∈ (Value.referencesItems items).flatMap ReferenceInput.numbers, s.store.Issued h) →
    Resolves L ms s (fun vs s' => ∀ o ∈ Value.referencesItems vs, o.Good s') (resolveItems items)
  | [], s, at', _ => by
      unfold resolveItems
      exact resolves_pure at' fun o ho => by cases ho
  | v :: rest, s, at', passes => by
      unfold resolveItems
      have numbers : ∀ h, h ∈ valueNumbers v ∨ h ∈ (Value.referencesItems rest).flatMap ReferenceInput.numbers →
          s.store.Issued h := by
        intro h hh
        apply passes h
        rw [Value.referencesItems, List.flatMap_append]
        exact List.mem_append.mpr hh
      apply resolves_bind (resolves_resolve v at' fun h hh => numbers h (.inl hh))
      intro w s' at' grown found
      apply resolves_bind (resolves_resolveItems rest at' fun h hh => grown.issued (numbers h (.inr hh)))
      intro ws s'' at'' grown' others
      refine resolves_pure at'' fun o ho => ?_
      rw [Value.referencesItems] at ho
      rcases List.mem_append.mp ho with ho | ho
      · exact (found o ho).mono grown'
      · exact others o ho

theorem resolves_resolveFields : ∀ (fields : List (String × ValueInput)) {s : Session}, At L ms s 0 →
    (∀ h ∈ (Value.referencesFields fields).flatMap ReferenceInput.numbers, s.store.Issued h) →
    Resolves L ms s (fun vs s' => ∀ o ∈ Value.referencesFields vs, o.Good s') (resolveFields fields)
  | [], s, at', _ => by
      unfold resolveFields
      exact resolves_pure at' fun o ho => by cases ho
  | (key, v) :: rest, s, at', passes => by
      unfold resolveFields
      have numbers : ∀ h, h ∈ valueNumbers v ∨ h ∈ (Value.referencesFields rest).flatMap ReferenceInput.numbers →
          s.store.Issued h := by
        intro h hh
        apply passes h
        rw [Value.referencesFields, List.flatMap_append]
        exact List.mem_append.mpr hh
      apply resolves_bind (resolves_resolve v at' fun h hh => numbers h (.inl hh))
      intro w s' at' grown found
      apply resolves_bind (resolves_resolveFields rest at' fun h hh => grown.issued (numbers h (.inr hh)))
      intro ws s'' at'' grown' others
      refine resolves_pure at'' fun o ho => ?_
      rw [Value.referencesFields] at ho
      rcases List.mem_append.mp ho with ho | ho
      · exact (found o ho).mono grown'
      · exact others o ho

end

section obtain

variable {r u : Multiset Handle}

/-- The reference can be made into a cell over a store where the cells of `out` are held. -/
def Origin.Available (t : Store) (out : Multiset CellId) : Origin → Prop
  | .fresh h => t.Issued h
  | .shared c => c ∈ out

theorem Origin.Available.mono {o : Origin} {t t' : Store} {out : Multiset CellId} {cells : List CellId}
    (available : o.Available t out) (moves : Ledger.Moves ⟨t, out, r, u⟩ ⟨t', cells + out, r, u⟩) :
    o.Available t' (cells + out) := by
  cases o with
  | fresh h => exact moves.issued available
  | shared c => exact Multiset.mem_add.mpr (.inr available)

theorem moves_obtain {o : Origin} {t : Store} {out : Multiset CellId} (available : o.Available t out) :
    Ledger.Moves ⟨t, out, r, u⟩ ⟨(obtain o t).2, ([(obtain o t).1] : List CellId) + out, r, u⟩ := by
  rw [Multiset.coe_singleton, Multiset.singleton_add]
  cases o with
  | fresh h => exact Ledger.moves_hold available
  | shared c => exact (Ledger.Move.retain t out r u c (Multiset.mem_add.mpr (.inl available))).moves

theorem moves_both {t t' t'' : Store} {out : Multiset CellId} {cells cells' : List CellId}
    (first : Ledger.Moves ⟨t, out, r, u⟩ ⟨t', cells + out, r, u⟩)
    (second : Ledger.Moves ⟨t', cells + out, r, u⟩ ⟨t'', cells' + (cells + out), r, u⟩) :
    Ledger.Moves ⟨t, out, r, u⟩ ⟨t'', (cells ++ cells' : List CellId) + out, r, u⟩ := by
  rw [← Multiset.coe_add, add_comm (Multiset.ofList cells), add_assoc]
  exact first.trans second

mutual

theorem moves_mapState : ∀ (v : Value Origin) {t : Store} {out : Multiset CellId},
    (∀ o ∈ v.references, o.Available t out) → Ledger.Moves ⟨t, out, r, u⟩
      ⟨(v.mapState obtain t).2, ((v.mapState obtain t).1.references : Multiset CellId) + out, r, u⟩
  | .nil, t, out, _ | .bool _, t, out, _ | .int _, t, out, _ | .float _, t, out, _ | .str _, t, out, _
  | .symbol _, t, out, _ => by
      show Ledger.Moves _ ⟨t, (([] : List CellId) : Multiset CellId) + out, r, u⟩
      rw [Multiset.coe_nil, zero_add]
      exact .refl _
  | .list items, t, out, available => moves_mapStateItems items available
  | .record fields, t, out, available => moves_mapStateFields fields available
  | .foreign o, t, out, available | .function o _, t, out, available => moves_obtain (available o List.mem_cons_self)

theorem moves_mapStateItems : ∀ (items : List (Value Origin)) {t : Store} {out : Multiset CellId},
    (∀ o ∈ Value.referencesItems items, o.Available t out) → Ledger.Moves ⟨t, out, r, u⟩
      ⟨(Value.mapStateItems obtain items t).2,
        (Value.referencesItems (Value.mapStateItems obtain items t).1 : Multiset CellId) + out, r, u⟩
  | [], t, out, _ => by
      show Ledger.Moves _ ⟨t, (([] : List CellId) : Multiset CellId) + out, r, u⟩
      rw [Multiset.coe_nil, zero_add]
      exact .refl _
  | v :: rest, t, out, available => by
      have first := moves_mapState v fun o ho => available o (List.mem_append_left _ ho)
      refine moves_both first (moves_mapStateItems rest fun o ho => ?_)
      exact (available o (List.mem_append_right _ ho)).mono first

theorem moves_mapStateFields : ∀ (fields : List (String × Value Origin)) {t : Store} {out : Multiset CellId},
    (∀ o ∈ Value.referencesFields fields, o.Available t out) → Ledger.Moves ⟨t, out, r, u⟩
      ⟨(Value.mapStateFields obtain fields t).2,
        (Value.referencesFields (Value.mapStateFields obtain fields t).1 : Multiset CellId) + out, r, u⟩
  | [], t, out, _ => by
      show Ledger.Moves _ ⟨t, (([] : List CellId) : Multiset CellId) + out, r, u⟩
      rw [Multiset.coe_nil, zero_add]
      exact .refl _
  | (key, v) :: rest, t, out, available => by
      have first := moves_mapState v fun o ho => available o (List.mem_append_left _ ho)
      refine moves_both first (moves_mapStateFields rest fun o ho => ?_)
      exact (available o (List.mem_append_right _ ho)).mono first

end

end obtain

theorem Kept.mono {v : Value CellId} {s t : Session} (kept : Kept v s) (grown : s.Extends t) : Kept v t :=
  fun c hc => grown.kept (kept c hc)

theorem mem_holdings {c : CellId} (kept : c ∈ s.temporaries) : c ∈ s.holdings := List.mem_append_right _ kept

theorem mem_holdings_of_binding {c : CellId} (there : c ∈ Keyed.contents Binding.cells s.bindings) : c ∈ s.holdings :=
  List.mem_append_left _ (List.mem_append_left _ (List.mem_append_left _ there))

theorem resolves_value (v : ValueInput) (at' : At L ms s 0) (passes : ∀ h ∈ valueNumbers v, s.store.Issued h) :
    Resolves L ms s Kept (value v) := by
  unfold value
  apply resolves_bind (resolves_resolve v at' passes)
  intro w s' at' _ found
  apply ensures_bind
  apply ensures_onStore
  have available : ∀ o ∈ w.references, o.Available s'.store (0 + s'.holdings) := by
    intro o ho
    have good := found o ho
    cases o with
    | fresh h => exact good
    | shared c => exact Multiset.mem_add.mpr (.inr (mem_holdings_of_binding good))
  have made := fun R U => moves_mapState (r := R) (u := U) w available
  have pending := at'.change (q := (w.mapState obtain s'.store).1.references + 0) fun R U _ => by
    rw [add_assoc]
    exact (made R U).evolves
  generalize w.mapState obtain s'.store = result at made pending ⊢
  obtain ⟨x, t⟩ := result
  apply ensures_bind
  apply ensures_modify
  refine ensures_pure ⟨pending.keep, ⟨rfl, List.subset_append_left _ _, (made 0 0).lastId_le⟩, fun c hc => ?_⟩
  exact List.mem_append_right _ hc

theorem resolves_values (inputs : List ValueInput) (at' : At L ms s 0)
    (passes : ∀ h ∈ inputs.flatMap valueNumbers, s.store.Issued h) :
    Resolves L ms s (fun vs s' => ∀ v ∈ vs, Kept v s') (inputs.mapM value) := by
  apply resolves_mapM (fun kept grown => kept.mono grown) inputs at'
  intro input hi s' at' grown
  exact resolves_value input at' fun h hh => grown.issued (passes h (List.mem_flatMap.mpr ⟨input, hi, hh⟩))

theorem KeptDatum.mono {data : Datum CellId} {s t : Session} (kept : KeptDatum data s) (grown : s.Extends t) :
    KeptDatum data t :=
  ⟨fun c hc => grown.kept (kept.1 c hc), fun h hh => grown.issued (kept.2 h hh)⟩

theorem resolves_datum (input : DatumInput) (at' : At L ms s 0) (passes : ∀ h ∈ input.numbers, s.store.Issued h) :
    Resolves L ms s KeptDatum (datum input) := by
  cases input with
  | plain data =>
    have given : ∀ h ∈ data.handles, s.store.Issued h := fun h hh => passes h (List.mem_append_left _ hh)
    cases data with
    | host v =>
      apply resolves_bind (resolves_value v at' fun h hh => passes h (List.mem_append_right _ hh))
      exact fun w s' at' _ kept => resolves_pure at' ⟨kept, fun h hh => by cases hh⟩
    | nothing | bool | int | float | str | symbol | array | dict | unknown =>
      exact resolves_pure at' ⟨fun c hc => absurd hc List.not_mem_nil, given⟩
  | array items =>
    apply resolves_bind (resolves_handles items at' passes)
    exact fun hs s' at' _ issued => resolves_pure at' ⟨fun c hc => absurd hc List.not_mem_nil, issued⟩
  | dict pairs =>
    refine resolves_bind (resolves_mapM
      (P := fun (kv : Handle × Handle) s' => s'.store.Issued kv.1 ∧ s'.store.Issued kv.2)
      (fun issued grown => ⟨grown.issued issued.1, grown.issued issued.2⟩) pairs at' ?_) ?_
    · rintro ⟨k, v⟩ hkv s' at' grown
      have numbers : ∀ h, h ∈ k.numbers ++ v.numbers → s'.store.Issued h := fun h hh =>
        grown.issued (passes h (List.mem_flatMap.mpr ⟨(k, v), hkv, hh⟩))
      apply resolves_bind (resolves_handle k at' fun h hh => numbers h (List.mem_append_left _ hh))
      intro x s'' at'' grown' issued
      apply resolves_bind (resolves_handle v at'' fun h hh => grown'.issued (numbers h (List.mem_append_right _ hh)))
      exact fun y s₃ at₃ grown₃ issued' => resolves_pure at₃ ⟨grown₃.issued issued, issued'⟩
    · intro kvs s' at' _ issued
      refine resolves_pure at' ⟨fun c hc => absurd hc List.not_mem_nil, fun h hh => ?_⟩
      obtain ⟨kv, hkv, hh⟩ := List.mem_flatMap.mp hh
      rcases List.mem_pair.mp hh with rfl | rfl
      · exact (issued kv hkv).1
      · exact (issued kv hkv).2

theorem resolves_function (input : FunctionInput) (at' : At L ms s 0) (passes : ∀ h ∈ input.numbers, s.store.Issued h) :
    Resolves L ms s (fun f s' => ∀ c ∈ f.2, c ∈ s'.holdings) (function input) := by
  cases input with
  | identity | failing | sum | stringify | rooted | count | pack | dict | nth | collecting | calling | field | typing =>
    exact resolves_pure at' fun c hc => by cases hc
  | constant h =>
    apply resolves_bind (resolves_handle h at' passes)
    exact fun k s' at' _ _ => resolves_pure at' fun c hc => by cases hc
  | making type fields =>
    apply resolves_bind (resolves_handle type at' passes)
    exact fun k s' at' _ _ => resolves_pure at' fun c hc => by cases hc
  | copying data =>
    apply resolves_bind (resolves_datum data at' passes)
    exact fun d s' at' _ kept => resolves_pure at' fun c hc => mem_holdings (kept.1 c hc)
  | raiseThen data h =>
    apply resolves_bind (resolves_datum data at' fun h hh => passes h (List.mem_append_left _ hh))
    intro d s' at' grown kept
    apply resolves_bind (resolves_handle h at' fun h hh => grown.issued (passes h (List.mem_append_right _ hh)))
    exact fun k s'' at'' grown' _ => resolves_pure at'' fun c hc => mem_holdings ((kept.mono grown').1 c hc)
  | custom captured body =>
    have each := resolves_mapM (P := fun b s' => ∃ name, (name, b) ∈ s'.bindings)
      (f := lookup) (fun ⟨name, there⟩ grown => ⟨name, grown.bindings ▸ there⟩) captured at' ?_
    · apply resolves_bind each
      intro bs s' at' _ there
      refine resolves_pure at' fun c hc => ?_
      obtain ⟨b, hb, hc⟩ := List.mem_flatMap.mp hc
      obtain ⟨name, found⟩ := there b hb
      exact mem_holdings_of_binding (mem_contents found hc)
    · intro name _ s' at' _
      refine (resolves_lookup name at').imp (fun _ h => h) ?_
      rintro b s'' ⟨at'', grown, rfl, found⟩
      exact ⟨at'', grown, name, found⟩

end Action

end Session

end ForeignBridge
