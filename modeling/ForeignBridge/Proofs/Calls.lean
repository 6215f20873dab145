import ForeignBridge.Proofs.Moments

/-! # Calls

A foreign function is any program. What it can do to the ledger is seen from its requests: each one is a sequence of
moves and sweeps in which the cells that the program holds are held from outside (`evolves_answer`). By induction on
the program, and on the depth of the calls, a call leads the ledger along its moments and leaves the cells held from
outside as they were (`along_call`). -/

namespace ForeignBridge

namespace Value

variable {ρ σ : Type} (f : ρ → σ)

mutual

theorem references_map : ∀ v : Value ρ, (v.map f).references = v.references.map f
  | .list items => by simpa [map, references] using references_mapItems items
  | .record fields => by simpa [map, references] using references_mapFields fields
  | .nil | .bool _ | .int _ | .float _ | .str _ | .symbol _ | .foreign _ | .function _ _ => by simp [map, references]

theorem references_mapItems : ∀ items : List (Value ρ),
    referencesItems (mapItems f items) = (referencesItems items).map f
  | [] => by simp [mapItems, referencesItems]
  | v :: rest => by simp [mapItems, referencesItems, references_map v, references_mapItems rest]

theorem references_mapFields : ∀ fields : List (String × Value ρ),
    referencesFields (mapFields f fields) = (referencesFields fields).map f
  | [] => by simp [mapFields, referencesFields]
  | (_, v) :: rest => by simp [mapFields, referencesFields, references_map v, references_mapFields rest]

end

theorem mem_referencesItems {c : ρ} {items : List (Value ρ)} (hc : c ∈ referencesItems items) :
    ∃ v ∈ items, c ∈ v.references := by
  induction items with
  | nil => cases hc
  | cons v rest ih =>
    rcases List.mem_append.mp hc with hc | hc
    · exact ⟨v, List.mem_cons_self, hc⟩
    · obtain ⟨w, hw, hc⟩ := ih hc
      exact ⟨w, List.mem_cons_of_mem _ hw, hc⟩

end Value

namespace Datum

variable {ρ σ : Type}

@[simp] theorem handles_map (f : ρ → σ) (data : Datum ρ) : (data.map f).handles = data.handles := by
  cases data <;> rfl

@[simp] theorem references_map (f : ρ → σ) (data : Datum ρ) : (data.map f).references = data.references.map f := by
  cases data with
  | host v => exact Value.references_map f v
  | _ => rfl

end Datum

namespace Store

@[simp] theorem inspect_snd (s : Store) (h : Handle) : (s.inspect h).2 = s.note .inspect := by
  unfold inspect
  dsimp only
  split <;> rfl

theorem inspect_fst (s : Store) (h : Handle) :
    (s.inspect h).1 = .unknown ∨ s.object? h = some (.value (s.inspect h).1) := by
  unfold inspect
  dsimp only
  split
  · next data e => exact .inr e
  · exact .inl rfl

/-- The cells in the data that a slot shows are held by its object. -/
theorem mem_boxed_of_inspect {s : Store} {h : Handle} {c : CellId} (hc : c ∈ (s.inspect h).1.references) :
    c ∈ s.boxed := by
  rcases s.inspect_fst h with unknown | shown
  · rw [unknown] at hc
    cases hc
  · obtain ⟨slot, hs, ho⟩ := object?_eq_some.mp shown
    apply mem_boxed_of_slot? hs
    rw [ho]
    exact hc

namespace Running

variable (r : Running)

theorem handles_resolve {data : Datum ℕ} {h : Handle} (hh : h ∈ (r.resolve data).handles) : h ∈ data.handles := by
  unfold resolve at hh
  split at hh
  · simpa using hh
  · cases hh

theorem references_resolve {data : Datum ℕ} {c : CellId} (hc : c ∈ (r.resolve data).references) : c ∈ r.held := by
  unfold resolve at hc
  split at hc
  · next inside =>
    rw [Datum.references_map, List.mem_map] at hc
    obtain ⟨i, hi, rfl⟩ := hc
    have := of_decide_eq_true (List.all_eq_true.mp inside i hi)
    rw [List.getD_eq_getElem _ _ this]
    exact List.getElem_mem this
  · cases hc

/-- A cell is bound to a handle, or nothing changes. -/
theorem bind_cases (i : ℕ) (h : Handle) : (r.bind i h).2 = r ∨
    ∃ c ∈ r.held, ∃ s, r.store.bind c h = .ok s ∧ (r.bind i h).2 = { r with store := s } := by
  unfold bind
  cases hc : r.held[i]? with
  | none => exact .inl rfl
  | some c =>
    dsimp only
    cases bound : r.store.bind c h with
    | error existing => exact .inl rfl
    | ok s => exact .inr ⟨c, List.mem_of_getElem? hc, s, bound, rfl⟩

/-- A cell is given up, or nothing changes. -/
theorem release_cases (i : ℕ) : r.release i = r ∨
    ∃ inside : i < r.held.length, r.release i = ⟨r.store.release r.held[i], r.held.eraseIdx i⟩ := by
  unfold release
  cases hc : r.held[i]? with
  | none => exact .inl rfl
  | some c =>
    obtain ⟨inside, rfl⟩ := List.getElem?_eq_some_iff.mp hc
    exact .inr ⟨inside, rfl⟩

/-! The cells held from outside, with those of a program last. -/

variable (outer : List CellId)

theorem perm_inspect (h : Handle) :
    ((r.store.inspect h).1.references ++ (outer ++ r.held)).Perm (outer ++ (r.inspect h).2.held) := by
  show List.Perm _ (outer ++ (r.held ++ (r.store.inspect h).1.references))
  rw [← List.append_assoc outer]
  exact List.perm_append_comm

theorem perm_taking (made : CellId × Store) :
    (made.1 :: (outer ++ r.held)).Perm (outer ++ (r.taking made).2.held) := by
  simp only [taking, ← List.append_assoc]
  exact (List.perm_append_singleton _ _).symm

theorem perm_eraseIdx {i : ℕ} (inside : i < r.held.length) :
    (outer ++ r.held).Perm (r.held[i] :: (outer ++ r.held.eraseIdx i)) :=
  ((List.getElem_cons_eraseIdx_perm inside).symm.append_left outer).trans List.perm_middle

theorem mem_resolved (data : Datum ℕ) : ∀ c ∈ (r.resolve data).references, c ∈ outer ++ r.held :=
  fun _ hc => List.mem_append_right _ (r.references_resolve hc)

theorem mem_captured (captured : List ℕ) {c : CellId} (hc : c ∈ captured.filterMap (r.held[·]?)) :
    c ∈ outer ++ r.held := by
  obtain ⟨i, _, hi⟩ := List.mem_filterMap.mp hc
  exact List.mem_append_right _ (List.mem_of_getElem? hi)

end Running

/-- The cells that a function captured are held by its slot. -/
theorem mem_boxed_of_captured {s : Store} {f : Handle} {name : String} {captured : List CellId}
    {body : List Handle → Program} (found : s.object? f = some (.function name captured body)) {c : CellId}
    (hc : c ∈ captured) : c ∈ s.boxed := by
  obtain ⟨slot, live, object⟩ := object?_eq_some.mp found
  apply mem_boxed_of_slot? live
  rw [object]
  exact hc

theorem function_or_other (s : Store) (f : Handle) :
    (∃ name captured body, s.object? f = some (.function name captured body)) ∨
      ∀ name captured body, s.object? f ≠ some (.function name captured body) := by
  by_cases callable : ∃ name captured body, s.object? f = some (.function name captured body)
  · exact .inl callable
  · push Not at callable
    exact .inr callable

section calls

variable {depth : ℕ} {outer : List CellId} {f : Handle} {args : List Handle} {name : String} {captured : List CellId}
  {body : List Handle → Program} {s : Store}

theorem callWithin_function (found : (s.note .call).object? f = some (.function name captured body)) :
    callWithin (depth + 1) f args s =
      match run (callWithin depth) (body args) ⟨(s.note .call).retainAll captured, captured⟩ with
      | (.ok h, r) => (h, r.store.releaseAll r.held)
      | (.error message, r) => (Handle.null, (r.store.releaseAll r.held).raiseMessage message) := by
  conv_lhs => unfold callWithin
  simp only [found]
  generalize run (callWithin depth) (body args) ⟨(s.note .call).retainAll captured, captured⟩ = ended
  obtain ⟨_ | _, _⟩ := ended <;> rfl

theorem callWithin_of_not_function (depth : ℕ) (args : List Handle)
    (other : ∀ name captured body, (s.note .call).object? f ≠ some (.function name captured body)) :
    ∃ message, callWithin (depth + 1) f args s = (Handle.null, (s.note .call).raiseAbout f message) := by
  unfold callWithin
  dsimp only
  split
  · next found => exact absurd found (other _ _ _)
  · exact ⟨_, rfl⟩

theorem callMomentsWithin_function (found : (s.note .call).object? f = some (.function name captured body)) :
    callMomentsWithin (depth + 1) outer f args s = programMoments (callWithin depth) (callMomentsWithin depth) outer
      (body args) ⟨(s.note .call).retainAll captured, captured⟩ := by
  conv_lhs => unfold callMomentsWithin
  simp only [found]

theorem callMomentsWithin_of_not_function
    (other : ∀ name captured body, (s.note .call).object? f ≠ some (.function name captured body)) :
    callMomentsWithin (depth + 1) outer f args s = [] := by
  unfold callMomentsWithin
  dsimp only
  split
  · next found => exact absurd found (other _ _ _)
  · rfl

end calls

end Store

theorem Request.quiet_or_call (request : Request) :
    (∀ f args, request ≠ .call f args) ∨ ∃ f args, request = .call f args := by
  cases request with
  | call f args => exact .inr ⟨f, args, rfl⟩
  | _ => exact .inl fun _ _ same => by cases same

namespace Ledger

open Store (Running)

/-! ### Collections -/

/-- A collection is a sweep, after which the cells of what was reclaimed are released. -/
theorem evolves_collect {s : Store} {o : Multiset CellId} {R U : Multiset Handle} :
    Evolves ⟨s, o, R, U⟩ ⟨s.collect.2, o, R, U⟩ := by
  rw [Store.collect_eq]
  have swept : Evolves ⟨s, o, R, U⟩ ⟨s.sweep, s.garbageCells + o, R, U⟩ :=
    Relation.ReflTransGen.single (.inr (Sweep.sweep s o R U))
  exact swept.trans (moves_releaseAll _).evolves

/-! ### Direct roots -/

theorem evolves_root {s : Store} {o : Multiset CellId} {R U : Multiset Handle} {h : Handle} (issued : s.Issued h) :
    Evolves ⟨s, o, R, U⟩ ⟨s.root h, o, (Act.request (.root h)).rooted + R, (Act.request (.root h)).unrooted + U⟩ := by
  show Evolves _ ⟨s.root h, o, {h} + R, 0 + U⟩
  rw [Multiset.singleton_add, zero_add]
  exact (Move.root s o R U h issued).moves.evolves

theorem evolves_unroot {s : Store} {o : Multiset CellId} {R U : Multiset Handle} {h : Handle} (issued : s.Issued h) :
    Evolves ⟨s, o, R, U⟩
      ⟨s.unroot h, o, (Act.request (.unroot h)).rooted + R, (Act.request (.unroot h)).unrooted + U⟩ := by
  show Evolves _ ⟨s.unroot h, o, 0 + R, {h} + U⟩
  rw [Multiset.singleton_add, zero_add]
  exact (Move.unroot s o R U h issued).moves.evolves

/-! ### Requests -/

section requests

variable {outer : List CellId} {r : Running} {R U : Multiset Handle}

theorem evolves_inspect (h : Handle) :
    Evolves ⟨r.store, (outer ++ r.held : List CellId), R, U⟩
      ⟨(r.inspect h).2.store, (outer ++ (r.inspect h).2.held : List CellId), R, U⟩ := by
  have noted : Moves ⟨r.store, (outer ++ r.held : List CellId), R, U⟩
      ⟨r.store.note .inspect, (outer ++ r.held : List CellId), R, U⟩ := moves_note _
  have retained := noted.trans (moves_retainAll (r.store.inspect h).1.references fun c hc =>
    Multiset.mem_add.mpr (.inr (Store.mem_boxed_of_inspect (s := r.store) hc)))
  rw [Multiset.coe_add, Multiset.coe_eq_coe.mpr (r.perm_inspect outer h), ← Store.inspect_snd r.store h] at retained
  exact retained.evolves

theorem evolves_taking {made : CellId × Store}
    (moves : Moves ⟨r.store, (outer ++ r.held : List CellId), R, U⟩
      ⟨made.2, made.1 ::ₘ ((outer ++ r.held : List CellId) : Multiset CellId), R, U⟩) :
    Evolves ⟨r.store, (outer ++ r.held : List CellId), R, U⟩
      ⟨(r.taking made).2.store, (outer ++ (r.taking made).2.held : List CellId), R, U⟩ := by
  rw [Multiset.cons_coe, Multiset.coe_eq_coe.mpr (r.perm_taking outer made)] at moves
  exact moves.evolves

theorem evolves_bind (i : ℕ) {h : Handle} (issued : r.store.Issued h) :
    Evolves ⟨r.store, (outer ++ r.held : List CellId), R, U⟩
      ⟨(r.bind i h).2.store, (outer ++ (r.bind i h).2.held : List CellId), R, U⟩ := by
  obtain same | ⟨c, hc, s, bound, same⟩ := r.bind_cases i h
  · rw [same]
    exact .refl _
  · have held : Holds ⟨r.store, (outer ++ r.held : List CellId), R, U⟩ c :=
      Multiset.mem_add.mpr (.inl (List.mem_append_right _ hc))
    rw [same]
    exact (Move.bind r.store s _ R U c h held issued bound).moves.evolves

theorem evolves_release (i : ℕ) :
    Evolves ⟨r.store, (outer ++ r.held : List CellId), R, U⟩
      ⟨(r.release i).store, (outer ++ (r.release i).held : List CellId), R, U⟩ := by
  obtain same | ⟨inside, same⟩ := r.release_cases i
  · rw [same]
    exact .refl _
  · rw [same, Multiset.coe_eq_coe.mpr (r.perm_eraseIdx outer inside), ← Multiset.cons_coe]
    exact (Move.release r.store _ R U _).moves.evolves

/-- **A request is a sequence of moves and sweeps.** -/
theorem evolves_answer (callee : Handle → List Handle → Store → Handle × Store) {request : Request}
    (sound : Sound ⟨r.store, (outer ++ r.held : List CellId), R, U⟩)
    (passes : ∀ h ∈ request.handles, r.store.Issued h) (quiet : ∀ f args, request ≠ .call f args) :
    Evolves ⟨r.store, (outer ++ r.held : List CellId), R, U⟩
      ⟨(r.answer callee request).2.store, (outer ++ (r.answer callee request).2.held : List CellId),
        (Act.request request).rooted + R, (Act.request request).unrooted + U⟩ := by
  have resolved : ∀ data : Datum ℕ, (∀ h ∈ data.handles, r.store.Issued h) →
      ∀ h ∈ (r.resolve data).handles, r.store.Issued h := fun data known h hh => known h (r.handles_resolve hh)
  -- Every request but the two that touch roots directly leaves the account of direct roots as it is.
  have plain : ∀ {t : Store} {o : Multiset CellId},
      Evolves ⟨r.store, (outer ++ r.held : List CellId), R, U⟩ ⟨t, o, R, U⟩ →
      Evolves ⟨r.store, (outer ++ r.held : List CellId), R, U⟩ ⟨t, o, 0 + R, 0 + U⟩ := by
    intro t o e
    rwa [zero_add, zero_add]
  cases request with
  | call f args => exact absurd rfl (quiet f args)
  | root h => exact evolves_root (passes h List.mem_cons_self)
  | unroot h => exact evolves_unroot (passes h List.mem_cons_self)
  | rootCount | isLive | isCallable | typeOf | submodule | member | family | version | callLog | read =>
    exact plain (Evolves.refl _)
  | construct data =>
    exact plain ((moves_construct (resolved data passes) (r.mem_resolved outer data)).evolves)
  | create type fields =>
    refine plain (moves_create (passes type List.mem_cons_self) ?_ ?_).evolves
    · intro field hf h hh
      obtain ⟨⟨name, data⟩, hd, rfl⟩ := List.mem_map.mp hf
      refine passes h (List.mem_cons_of_mem _ (List.mem_flatMap.mpr ⟨(name, data), hd, ?_⟩))
      exact r.handles_resolve hh
    · intro field hf c hc
      obtain ⟨⟨name, data⟩, _, rfl⟩ := List.mem_map.mp hf
      exact r.mem_resolved outer data c hc
  | inspect h => exact plain (evolves_inspect h)
  | describe h => exact plain ((moves_describe h).evolves)
  | readField h name => exact plain ((moves_readField h name).evolves)
  | applyFamily head params =>
    have known := passes head List.mem_cons_self
    have issued : ∀ h ∈ params, r.store.Issued h := fun h hh => passes h (List.mem_cons_of_mem _ hh)
    exact plain ((moves_applyFamily known issued).evolves)
  | provideFamily name => exact plain ((moves_provideFamily name).evolves)
  | defineModule path => exact plain ((moves_defineModule sound path).1.evolves)
  | defineGlobal path name data =>
    have := (moves_defineGlobal sound path name (resolved data passes) (r.mem_resolved outer data)).1
    exact plain (this.evolves)
  | raise data =>
    exact plain ((moves_raise (resolved data passes) (r.mem_resolved outer data)).evolves)
  | pendingFault => exact plain (moves_pendingFault.evolves)
  | clearFault => exact plain (moves_clearFault.evolves)
  | recordCalls => exact plain ((Move.log r.store _ R U _ _).moves.evolves)
  | collect => exact plain (evolves_collect)
  | hold h =>
    have := (Move.hold r.store (outer ++ r.held : List CellId) R U h (passes h List.mem_cons_self)).moves
    exact plain (evolves_taking this)
  | newCell =>
    have := (Move.newCell r.store (outer ++ r.held : List CellId) R U).moves
    exact plain (evolves_taking this)
  | bind i h =>
    exact plain (evolves_bind i (passes h List.mem_cons_self))
  | release i => exact plain (evolves_release i)

end requests

/-! ### Programs -/

section programs

variable {callee : Handle → List Handle → Store → Handle × Store}
  {nested : List CellId → Handle → List Handle → Store → List Moment}

/-- Calls through `callee` lead along the moments that `nested` lists, and give a handle that was handed out. -/
def Follows (callee : Handle → List Handle → Store → Handle × Store)
    (nested : List CellId → Handle → List Handle → Store → List Moment) : Prop :=
  ∀ {outer : List CellId} {f : Handle} {args : List Handle} {s : Store} {R U : Multiset Handle},
    Sound ⟨s, outer, R, U⟩ → s.Issued f → (∀ h ∈ args, s.Issued h) → (∀ m ∈ nested outer f args s, m.Passes) →
    (∃ R' U', Along ⟨s, outer, R, U⟩ (nested outer f args s) ⟨(callee f args s).2, outer, R', U'⟩) ∧
      (callee f args s).2.Issued (callee f args s).1

/-- A request that is no call has no moments but its own. -/
theorem programMoments_ask {outer : List CellId} {request : Request} {next : request.Reply → Program} {r : Running}
    (quiet : ∀ f args, request ≠ .call f args) : Store.programMoments callee nested outer (.ask request next) r =
      ⟨r.store, outer ++ r.held, .request request⟩ ::
        Store.programMoments callee nested outer (next (r.answer callee request).1) (r.answer callee request).2 := by
  cases request with
  | call f args => exact absurd rfl (quiet f args)
  | _ => rfl

theorem along_call_request (follows : Follows callee nested) {outer : List CellId} {f : Handle} {args : List Handle}
    {r : Running} {R U : Multiset Handle} (sound : Sound ⟨r.store, (outer ++ r.held : List CellId), R, U⟩)
    (passes : ∀ h ∈ (Request.call f args).handles, r.store.Issued h)
    (inner : ∀ m ∈ nested (outer ++ r.held) f args r.store, m.Passes) :
    ∃ R' U', Along ⟨r.store, (outer ++ r.held : List CellId), R, U⟩
      (⟨r.store, outer ++ r.held, .request (.call f args)⟩ :: nested (outer ++ r.held) f args r.store)
      ⟨(callee f args r.store).2, (outer ++ r.held : List CellId), R', U'⟩ := by
  obtain ⟨⟨R', U', along⟩, _⟩ := follows sound (passes f List.mem_cons_self)
    (fun h hh => passes h (List.mem_cons_of_mem _ hh)) inner
  exact ⟨R', U', Along.append (.still (m := ⟨r.store, outer ++ r.held, .request (.call f args)⟩) rfl rfl) along⟩

/-- **A program leads the ledger along its moments.** -/
theorem along_run (follows : Follows callee nested) {outer : List CellId} (p : Program) :
    ∀ {r : Running} {R U : Multiset Handle}, Sound ⟨r.store, (outer ++ r.held : List CellId), R, U⟩ →
    (∀ m ∈ Store.programMoments callee nested outer p r, m.Passes) →
    (∃ R' U', Along ⟨r.store, (outer ++ r.held : List CellId), R, U⟩ (Store.programMoments callee nested outer p r)
      ⟨(Store.run callee p r).2.store, (outer ++ (Store.run callee p r).2.held : List CellId), R', U'⟩) ∧
    ∀ h, (Store.run callee p r).1 = .ok h → (Store.run callee p r).2.store.Issued h := by
  induction p with
  | done result =>
    intro r R U _ passes
    refine ⟨⟨R, U, .still (m := ⟨r.store, outer ++ r.held, .result result⟩) rfl rfl⟩, fun h e => ?_⟩
    obtain rfl := Except.ok.inj e
    exact passes _ List.mem_cons_self result List.mem_cons_self
  | fail message =>
    intro r R U _ _
    exact ⟨⟨R, U, .nil (.refl _)⟩, fun h e => by cases e⟩
  | ask request next ih =>
    intro r R U sound passes
    rcases request.quiet_or_call with quiet | ⟨f, args, rfl⟩
    · rw [programMoments_ask quiet] at passes ⊢
      have act := evolves_answer callee sound (passes _ List.mem_cons_self) quiet
      obtain ⟨⟨R', U', rest⟩, result⟩ := ih _ (act.sound sound) fun m hm => passes m (List.mem_cons_of_mem _ hm)
      exact ⟨⟨R', U', .cons (.refl _) act rest⟩, result⟩
    · obtain ⟨R₁, U₁, called⟩ := along_call_request follows sound (passes _ List.mem_cons_self) fun m hm =>
        passes m (List.mem_cons_of_mem _ (List.mem_append_left _ hm))
      obtain ⟨⟨R', U', rest⟩, result⟩ := ih (r.answer callee (.call f args)).1
        (r := (r.answer callee (.call f args)).2) (called.evolves.sound sound) fun m hm =>
          passes m (List.mem_cons_of_mem _ (List.mem_append_right _ hm))
      exact ⟨⟨R', U', called.append rest⟩, result⟩
  | define path name captured body next _ ih =>
    intro r R U sound passes
    have defined := (moves_defineFunction sound path name _ body fun _ => r.mem_captured outer captured).1.evolves
    obtain ⟨⟨R', U', rest⟩, result⟩ := ih _ (r := ⟨_, r.held⟩) (defined.sound sound) passes
    exact ⟨⟨R', U', rest.before defined⟩, result⟩

/-- A function that is called holds the cells that it captured. -/
theorem moves_entered {outer captured : List CellId} {f : Handle} {name : String} {body : List Handle → Program}
    {s : Store} {R U : Multiset Handle} (found : (s.note .call).object? f = some (.function name captured body)) :
    Moves ⟨s, outer, R, U⟩ ⟨(s.note .call).retainAll captured, (outer ++ captured : List CellId), R, U⟩ := by
  have noted : Moves ⟨s, outer, R, U⟩ ⟨s.note .call, outer, R, U⟩ := moves_note _
  have held : ∀ c ∈ captured, Holds ⟨s.note .call, outer, R, U⟩ c :=
    fun c hc => Multiset.mem_add.mpr (.inr (Store.mem_boxed_of_captured found hc))
  have entered := noted.trans (moves_retainAll captured held)
  rwa [Multiset.coe_add, Multiset.coe_eq_coe.mpr List.perm_append_comm] at entered

/-- **A call leads the ledger along its moments, however deep it may go.** -/
theorem along_callWithin (depth : ℕ) : Follows (Store.callWithin depth) (Store.callMomentsWithin depth) := by
  induction depth with
  | zero =>
    intro outer f args s R U _ _ _ _
    exact ⟨⟨R, U, .nil moves_halt.evolves⟩, Store.issued_null _⟩
  | succ depth ih =>
    intro outer f args s R U sound _ _ passes
    have noted : Moves ⟨s, outer, R, U⟩ ⟨s.note .call, outer, R, U⟩ := moves_note _
    rcases (s.note .call).function_or_other f with ⟨name, captured, body, found⟩ | other
    · rw [Store.callMomentsWithin_function found] at passes ⊢
      rw [Store.callWithin_function found]
      have entered : Moves ⟨s, outer, R, U⟩ _ := moves_entered found
      obtain ⟨⟨R', U', along⟩, result⟩ := along_run ih (body args) (entered.sound sound) passes
      generalize Store.run (Store.callWithin depth) (body args) ⟨(s.note .call).retainAll captured, captured⟩ = ended
        at along result ⊢
      obtain ⟨outcome, r⟩ := ended
      have released : Moves ⟨r.store, (outer ++ r.held : List CellId), R', U'⟩
          ⟨r.store.releaseAll r.held, outer, R', U'⟩ := by
        rw [Multiset.coe_eq_coe.mpr List.perm_append_comm, ← Multiset.coe_add]
        exact moves_releaseAll _
      have whole := along.before entered.evolves
      cases outcome with
      | error message =>
        have last := (released.trans (moves_raiseMessage message)).evolves
        exact ⟨⟨R', U', whole.after last⟩, Store.issued_null _⟩
      | ok h => exact ⟨⟨R', U', whole.after released.evolves⟩, released.issued (result h rfl)⟩
    · obtain ⟨message, called⟩ := Store.callWithin_of_not_function depth args other
      rw [Store.callMomentsWithin_of_not_function other, called]
      exact ⟨⟨R, U, .nil (noted.trans (moves_raiseAbout f message)).evolves⟩, Store.issued_null _⟩

theorem along_call : Follows Store.call Store.callMoments :=
  fun {_ _ _ s _ _} => along_callWithin s.stack

end programs

end Ledger

end ForeignBridge
