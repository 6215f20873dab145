import ForeignBridge.Proofs.Custody
import ForeignBridge.Proofs.Registering

/-! # The registry as an index

Between two calls of a registry anything may happen in the store: slots are filled and swept, cells come and go, roots
are taken and given back, faults are raised (`Acts`). Whatever evolves by operations of the store does so
(`Evolves.acts`). None of this moves a family or an applied type (`Acts.keepsTypes`), and a cell that somebody holds
keeps its binding.

So a registry that went through any calls and any such activity (`Run`) is faithful to its store: the start is, and
each call and all activity between calls keep it so (`Kept`). What the type expressions stand for settles the rest: the
registered types and their foreign types are in one-to-one correspondence (`Run.index_exact`). The registry that
registration leaves is kept as well, whoever holds other cells meanwhile (`kept_registerAll`). -/

namespace ForeignBridge

/-! ### Activity and the account of cells -/

namespace Store

variable {s t : Store} {o o' : Multiset CellId}

theorem Balanced.sweep (balanced : s.Balanced (o + s.boxed)) :
    s.sweep.Balanced (s.garbageCells + o + s.sweep.boxed) := by
  refine (balanced.congr (cells_sweep s)).of_eq ?_
  rw [← (sweep_spec s).2]
  abel

theorem Acts.balanced (acts : s.Acts o t o') (balanced : s.Balanced (o + s.boxed)) :
    t.Balanced (o' + t.boxed) := by
  induction acts with
  | refl => exact balanced
  | change _ change ih => exact change.balanced ih
  | sweep _ ih => exact ih.sweep

end Store

namespace Registry

/-! ### Runs -/

/-- A registry and its store after calls of the registry, with any activity between them, and the cells that others
hold from outside then. -/
inductive Run : Registry → Store → Multiset CellId → Prop where
  | start (version : Version) (stack : ℕ) : Run .empty (.ofVersion version stack) 0
  /-- Registers a template of the catalog. -/
  | addFamily {r : Registry} {s : Store} {o : Multiset CellId} (run : Run r s o) (t : Template)
      (listed : t ∈ Catalog.templates) : Run (r.addFamily t s).2.1 (r.addFamily t s).2.2 o
  /-- Registers a type, whatever it is. -/
  | instantiate {r : Registry} {s : Store} {o : Multiset CellId} (run : Run r s o) (t : TypeExpr) :
      Run (r.instantiate t s).2.1 (r.instantiate t s).2.2 o
  /-- Anything else, as long as the cells of the registry stay its own. -/
  | other {r : Registry} {s s' : Store} {o o' : Multiset CellId} (run : Run r s o)
      (acts : s.Acts (r.cells + o) s' (r.cells + o')) : Run r s' o'

variable {r : Registry} {s s' : Store} {o o' : Multiset CellId} {t : TypeExpr} {h : Handle}

/-- What every step of a run keeps. -/
structure Kept (r : Registry) (s : Store) (o : Multiset CellId) : Prop where
  faithful : r.Faithful s
  ascends : r.Ascends
  balanced : s.Balanced (r.cells + o + s.boxed)

theorem held_of_balanced (balanced : s.Balanced (r.cells + o + s.boxed)) : r.Held s := fun _ hc =>
  balanced.mem_iff.mp (Multiset.mem_add.mpr (.inl (Multiset.mem_add.mpr (.inl hc))))

theorem kept_start (version : Version) (stack : ℕ) : Kept .empty (.ofVersion version stack) 0 where
  faithful := faithful_empty (Store.interned_ofVersion version stack)
  ascends := ascends_empty
  balanced := (Ledger.sound_initial version stack).balanced

/-- A template that cannot be registered leaves the registry and the store as they were. -/
theorem addFamily_of_error {t : Template} {e : RegistrationError} (failed : (r.addFamily t s).1 = .error e) :
    (r.addFamily t s).2 = (r, s) := by
  have ways := adds t r s
  generalize r.addFamily t s = result at ways failed ⊢
  cases ways with
  | hindered => rfl
  | extension | made => cases failed

/-- What a faithful registry finds in the store is there. -/
theorem Faithful.finds (faithful : r.Faithful s) : Ledger.Finds r s where
  types t h found := by
    obtain ⟨_, object, _⟩ := Store.object?_denotation? faithful.interned (faithful.lookup_eq_some.mp found).2
    exact Store.issued_of_object? object
  constructors name f found := by
    obtain ⟨_, h, provided, bound⟩ := faithful.families found
    rw [Store.read_of_binding? bound]
    exact faithful.interned.issued_family? provided
  families _ _ found := faithful.interned.issued_family? found
  applied _ _ _ found := faithful.interned.issued_applied? found

/-- Registering a template is activity. -/
theorem Kept.acts_addFamily (kept : Kept r s o) (t : Template) :
    s.Acts (r.cells + o) (r.addFamily t s).2.2 ((r.addFamily t s).2.1.cells + o) :=
  (Ledger.moves_addFamily (R := 0) (U := 0) t kept.faithful.finds kept.ascends).1.evolves.acts

theorem Kept.addFamily (kept : Kept r s o) {t : Template} (listed : t ∈ Catalog.templates) :
    Kept (r.addFamily t s).2.1 (r.addFamily t s).2.2 o := by
  obtain ⟨-, ascends⟩ :=
    Ledger.moves_addFamily (s := s) (o := o) (R := 0) (U := 0) t kept.faithful.finds kept.ascends
  have balanced := (kept.acts_addFamily t).balanced kept.balanced
  refine ⟨?_, ascends, balanced⟩
  cases outcome : (r.addFamily t s).1 with
  | error e =>
    rw [addFamily_of_error outcome]
    exact kept.faithful
  | ok => exact kept.faithful.addFamily listed (Prod.ext outcome rfl) (.inl (held_of_balanced balanced))

/-- Registering a type is activity. -/
theorem Kept.acts_instantiate (kept : Kept r s o) (t : TypeExpr) :
    s.Acts (r.cells + o) (r.instantiate t s).2.2 ((r.instantiate t s).2.1.cells + o) :=
  (Ledger.moves_instantiate (R := 0) (U := 0) t kept.faithful.finds kept.ascends).1.evolves.acts

theorem Kept.instantiate (kept : Kept r s o) (t : TypeExpr) :
    Kept (r.instantiate t s).2.1 (r.instantiate t s).2.2 o := by
  obtain ⟨-, ascends, -⟩ :=
    Ledger.moves_instantiate (s := s) (o := o) (R := 0) (U := 0) t kept.faithful.finds kept.ascends
  exact ⟨(kept.faithful.instantiate t).1, ascends, (kept.acts_instantiate t).balanced kept.balanced⟩

theorem Kept.other (kept : Kept r s o) (acts : s.Acts (r.cells + o) s' (r.cells + o')) : Kept r s' o' := by
  have balanced := acts.balanced kept.balanced
  refine ⟨kept.faithful.mono acts.keepsTypes fun c hc h bound => ?_, kept.ascends, balanced⟩
  obtain ⟨cell, there, _⟩ := Store.cell?_of_binding? bound
  obtain ⟨later, left⟩ := held_of_balanced balanced c hc
  obtain ⟨cell', there', kept⟩ := acts.persists (Store.lt_of_cell? there) later left
  rw [Store.binding?_of_cell? left]
  exact kept h (by rwa [Store.binding?_of_cell? there'] at bound)

/-- **Every run leaves a faithful registry, the cells of which are held.** -/
theorem Run.kept (run : Run r s o) : Kept r s o := by
  induction run with
  | start version stack => exact kept_start version stack
  | addFamily _ t listed ih => exact ih.addFamily listed
  | instantiate _ t ih => exact ih.instantiate t
  | other _ acts ih => exact ih.other acts

/-! ### The index -/

/-- **The index and the order list the same types**: one type has one foreign type, and every registration of it is in
the order. -/
theorem Faithful.mem_order_iff (faithful : r.Faithful s) : t ∈ r.order ↔ ∃ h, r.hostType? h = some t := by
  rw [← faithful.listed]
  constructor
  · intro registered
    obtain ⟨c, found⟩ := isRegistered_iff.mp registered
    obtain ⟨h, stands, _⟩ := faithful.types found
    exact ⟨h, faithful.indexed.mpr ⟨registered, stands⟩⟩
  · rintro ⟨h, found⟩
    exact (faithful.indexed.mp found).1

/-- Host types and foreign types are an index of each other. -/
structure Exact (r : Registry) (s : Store) : Prop where
  inverse : ∀ t h, r.lookup s t = some h ↔ r.hostType? h = some t
  distinct : ∀ t u h, r.lookup s t = some h → r.lookup s u = some h → t = u
  live : ∀ t, r.isRegistered t = true → ∃ h, r.lookup s t = some h ∧ h ≠ Handle.null ∧ s.isLive h = true
  /-- The order lists the types of the index. -/
  listed : ∀ t, t ∈ r.order ↔ ∃ h, r.hostType? h = some t
  /-- The parameters of a type come before it. -/
  parameters : ∀ t, r.isRegistered t = true → ∃ before after, r.order = before ++ t :: after ∧ t ∉ before ∧
    ∀ p ∈ t.params, p ∈ before ∧ r.isRegistered p = true

theorem Faithful.exact (faithful : r.Faithful s) : r.Exact s where
  inverse t h := faithful.lookup_eq_some.trans faithful.indexed.symm
  distinct t u h found found' :=
    Store.denotation?_injective faithful.interned (faithful.lookup_eq_some.mp found).2
      (faithful.lookup_eq_some.mp found').2
  live t registered := by
    obtain ⟨h, found⟩ := lookup_of_registered s registered
    have stands := (faithful.lookup_eq_some.mp found).2
    exact ⟨h, found, Store.denotation?_ne_null faithful.interned stands,
      Store.isLive_denotation? faithful.interned stands⟩
  listed _ := faithful.mem_order_iff
  parameters t registered := by
    obtain ⟨before, after, split, first⟩ := List.eq_append_cons_of_mem (faithful.listed.mp registered)
    have earlier := faithful.parameters split first
    refine ⟨before, after, split, first, fun p hp => ⟨earlier p hp, faithful.listed.mpr ?_⟩⟩
    rw [split]
    exact List.mem_append_left _ (earlier p hp)

/-! ### Calls that fail -/

/-- The registry is as it was, and so is what its cells refer to. -/
structure Unchanged (r : Registry) (s : Store) (r' : Registry) (s' : Store) : Prop where
  registry : r' = r
  lookup : ∀ t, r'.lookup s' t = r.lookup s t
  constructors : ∀ name f, r.families.get? name = some f → s'.read f.constructor = s.read f.constructor

theorem unchanged_of_cells (same : s'.cells = s.cells) : r.Unchanged s r s' := by
  have read : ∀ c, s'.read c = s.read c := fun c => congrArg (·.getD Handle.null) (Store.binding?_congr same c)
  exact ⟨rfl, fun t => by rw [Registry.lookup, Registry.lookup, funext read], fun _ f _ => read f.constructor⟩

theorem Faithful.instantiate_of_error (faithful : r.Faithful s) {e : RegistrationError}
    (failed : (r.instantiate t s).1 = .error e) :
    (r.instantiate t s).2.1 = r ∧ (r.instantiate t s).2.2.cells = s.cells := by
  have ways := faithful.instantiates t
  generalize r.instantiate t s = result at ways failed ⊢
  cases ways with
  | known | made => cases failed
  | unknownFamily | arityMismatch | unregisteredParameter => exact ⟨rfl, rfl⟩
  | faulted _ _ _ cells => exact ⟨rfl, cells⟩

/-- **The index stays exact**, whatever is registered and whatever else goes on. A type that is registered already is
left alone, and a call that fails leaves the registry as it was, its families, its types, its index and its order. -/
theorem Run.index_exact (run : Run r s o) : r.Exact s ∧
    (∀ t h, r.lookup s t = some h → r.instantiate t s = (.ok h, r, s)) ∧
    (∀ t e, (r.addFamily t s).1 = .error e → r.Unchanged s (r.addFamily t s).2.1 (r.addFamily t s).2.2) ∧
    (∀ t e, (r.instantiate t s).1 = .error e → r.Unchanged s (r.instantiate t s).2.1 (r.instantiate t s).2.2) := by
  have faithful := run.kept.faithful
  refine ⟨faithful.exact, fun t h found => ?_, fun t e failed => ?_, fun t e failed => ?_⟩
  · rw [Registry.instantiate, found]
  · rw [addFamily_of_error failed]
    exact unchanged_of_cells rfl
  · obtain ⟨same, cells⟩ := faithful.instantiate_of_error failed
    rw [same]
    exact unchanged_of_cells cells

/-- Before any call, the runtime may provide families. -/
theorem Run.providing (version : Version) (names : List String) (stack : ℕ) :
    Run .empty (.providing version names stack) 0 :=
  (Run.start version stack).other (Ledger.moves_providing version names stack).evolves.acts

theorem Run.collect (run : Run r s o) : Run r s.collect.2 o :=
  run.other (Ledger.evolves_collect (R := 0) (U := 0)).acts

/-- Integers and arrays, arrays of integers, and then the integers again: a collection changes nothing in the index. -/
theorem Run.index_exact_afterCollection :
    let array : TypeExpr := ⟨"Array", [.concrete "Int"]⟩
    ∃ r s, Run r s 0 ∧ r.order = [.concrete "Int", array, .concrete "Int"] ∧ r.hostType? ⟨4⟩ = some array ∧
      r.lookup s.collect.2 array = some ⟨4⟩ ∧ r.instantiate array s.collect.2 = (.ok ⟨4⟩, r, s.collect.2) := by
  intro array
  have int : (Catalog.find? "Int").get (by decide +kernel) ∈ Catalog.templates := List.get_find?_mem ..
  have generic : (Catalog.find? "Array").get (by decide +kernel) ∈ Catalog.templates := List.get_find?_mem ..
  have providing : Run .empty (.providing (.ofNumbers 4 11 0) ["long", "pm::Array"]) 0 :=
    .providing _ _ _
  obtain ⟨r, s, run, order, found⟩ : ∃ r s, Run r s 0 ∧
      r.order = [.concrete "Int", array, .concrete "Int"] ∧ r.hostType? ⟨4⟩ = some array :=
    ⟨_, _, (((providing.addFamily _ int).addFamily _ generic).instantiate array).addFamily _ int, by decide +kernel,
      by decide +kernel⟩
  obtain ⟨exact', again, _⟩ := run.collect.index_exact
  have there := (exact'.inverse array ⟨4⟩).mpr found
  exact ⟨r, s, run, order, found, there, again array ⟨4⟩ there⟩

end Registry

/-! ### Registration -/

namespace Registration

variable {s : Store} {o : Multiset CellId}

theorem kept_tryFamily {p : Progress} (kept : p.registry.Kept p.store o) {t : Template}
    (listed : t ∈ Catalog.templates) : (tryFamily t p).registry.Kept (tryFamily t p).store o := by
  have added := kept.addFamily listed
  unfold tryFamily
  generalize p.registry.addFamily t p.store = result at added ⊢
  obtain ⟨_ | _, _⟩ := result <;> exact added

theorem kept_registerFamilies {templates : List Template} (inside : templates ⊆ Catalog.templates) (order : List String) :
    ∀ {p : Progress}, p.registry.Kept p.store o →
      (registerFamilies templates order p).registry.Kept (registerFamilies templates order p).store o := by
  induction order with
  | nil => exact id
  | cons name order ih =>
    intro p kept
    unfold registerFamilies
    rw [List.foldl_cons]
    cases found : templates.reverse.find? (·.family == name) with
    | none => exact ih kept
    | some t =>
      have listed := inside (List.mem_reverse.mp (List.mem_of_find?_eq_some found))
      exact ih (kept_tryFamily kept listed)

theorem kept_tryInstance {p : Progress} (kept : p.registry.Kept p.store o) (i : Pending) :
    (tryInstance p i).registry.Kept (tryInstance p i).store o := by
  unfold tryInstance
  split
  · split <;> exact kept
  · have made := kept.instantiate i.type
    generalize p.registry.instantiate i.type p.store = result at made ⊢
    obtain ⟨_ | _, _⟩ := result <;> exact made

theorem kept_instances (instances : List Pending) : ∀ {p : Progress}, p.registry.Kept p.store o →
    (instances.foldl tryInstance p).registry.Kept (instances.foldl tryInstance p).store o := by
  induction instances with
  | nil => exact id
  | cons i instances ih => exact fun kept => ih (kept_tryInstance kept i)

/-- **Registration leaves a registry that is kept**, whatever cells others hold. -/
theorem kept_registerAll (settings : RegistrationSettings) (interned : s.Interned)
    (balanced : s.Balanced (o + s.boxed)) :
    (registerAll Catalog.templates settings s).registry.Kept (registerAll Catalog.templates settings s).store o := by
  have start : Registry.empty.Kept s o :=
    ⟨Registry.faithful_empty interned, Registry.ascends_empty, balanced.of_eq (by simp [Registry.empty, Registry.cells])⟩
  exact kept_instances _ (kept_registerFamilies List.filter_sublist.subset _ start)

end Registration

end ForeignBridge
