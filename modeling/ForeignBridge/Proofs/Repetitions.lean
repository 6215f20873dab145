import ForeignBridge.Proofs.RegistryRuns

/-! # Registering again

A family that is registered can be registered again, and afterwards the registry tells the same of every type and every
foreign type (`Repeats`). But a single type is put at the end of the list of types once more, since registering a family
does not ask whether its type is there, as registering an instance does. So the list of types shows a single type as
often as its family was registered, and any other type once (`Run.types_listed`).

The families that stand for single types are tallied along a run (`Tallied`). What the tally says of the registry, and
that a registered family keeps what it needs to be registered, is kept by every step (`Accounted`). -/

namespace ForeignBridge

namespace Keyed

variable {α : Type} {table : Keyed α}

theorem mem_keys (ascends : Ascends table) {key : String} : key ∈ table.keys ↔ has key table = true := by
  simp [has, Option.isSome_iff_exists, get?_eq_some_iff ascends, keys]

/-- Replacing a value leaves the keys. -/
theorem keys_insert_of_has (ascends : Ascends table) {key : String} (there : has key table = true) (value : α) :
    (insert key value table).keys = table.keys := by
  refine (ascends.insert key value).eq_of_mem_iff ascends fun k => ?_
  show k ∈ keys _ ↔ k ∈ keys _
  rw [mem_keys (ascends.insert key value), mem_keys ascends, has, get?_insert]
  split
  · next same => simp [same, there]
  · rfl

end Keyed

namespace Store

variable {s t : Store} {o o' : Multiset CellId}

theorem Change.version (change : s.Change o t o') : t.version = s.version := by
  cases change with
  | log | fault | newCell | retain | push => rfl
  | root o h => exact version_updateSlot s h _
  | unroot o h => exact version_updateSlot s h _
  | setMember o parent name h => exact version_updateSlot s parent _
  | hold o h =>
    rw [hold_eq]
    exact version_updateSlot s h _
  | bind t o c h bound =>
    obtain ⟨_, rfl⟩ := bind_eq_ok.mp bound
    exact version_updateSlot s h _
  | release o c => exact version_release s c

theorem version_sweep (s : Store) : s.sweep.version = s.version :=
  apply_sweep Store.version (fun _ _ => rfl) s

/-- No activity changes the version of the library. -/
theorem Acts.version (acts : s.Acts o t o') : t.version = s.version := by
  induction acts with
  | refl => rfl
  | change _ change ih => exact change.version.trans ih
  | sweep _ ih => exact (version_sweep _).trans ih

end Store

namespace Registry

variable {r r' : Registry} {s s' : Store} {o o' : Multiset CellId} {names : List String} {t : Template} {e : TypeExpr}

/-! ### The list of types -/

theorem isRegistered_iff_mem : r.isRegistered e = true ↔ e ∈ r.types.map Prod.fst := by
  simp [isRegistered, cell?, List.lookup_isSome_iff]

theorem families_withFamily (t : Template) (c : CellId) (h : Handle) (r : Registry) :
    (r.withFamily t c h).families = r.families.insert t.family ⟨t, c⟩ := by
  unfold withFamily
  dsimp only
  split <;> rfl

/-- Another registration of a type does not change which types there are. -/
theorem map_fst_withFamily_of_registered (c : CellId) (h : Handle)
    (there : t.isScalar = true → r.isRegistered (.concrete t.family) = true) :
    (r.withFamily t c h).types.map Prod.fst = r.types.map Prod.fst := by
  show (if t.isScalar then r.withType (.concrete t.family) c h else r).types.map Prod.fst = _
  split
  · next scalar => exact (Assoc.keys_insert ..).trans (if_pos (isRegistered_iff_mem.mp (there scalar)))
  · rfl

/-! ### What is told of types -/

theorem Faithful.lookup_congr (faithful : r.Faithful s) (faithful' : r'.Faithful s') (keeps : s.KeepsTypes s')
    (same : r'.types.map Prod.fst = r.types.map Prod.fst) (e : TypeExpr) : r'.lookup s' e = r.lookup s e := by
  have registered : r'.isRegistered e = true ↔ r.isRegistered e = true := by
    rw [isRegistered_iff_mem, isRegistered_iff_mem, same]
  cases found : r.lookup s e with
  | none =>
    cases found' : r'.lookup s' e with
    | none => rfl
    | some h =>
      obtain ⟨_, here⟩ := lookup_of_registered s (registered.mp (faithful'.lookup_eq_some.mp found').1)
      rw [found] at here
      cases here
  | some h =>
    obtain ⟨there, stands⟩ := faithful.lookup_eq_some.mp found
    exact faithful'.lookup_eq_some.mpr ⟨registered.mpr there, keeps.denotation? stands⟩

/-- From foreign types back to host types, a registry tells what follows from looking types up. -/
theorem Faithful.hostType?_congr (faithful : r.Faithful s) (faithful' : r'.Faithful s')
    (same : ∀ e, r'.lookup s' e = r.lookup s e) (h : Handle) : r'.hostType? h = r.hostType? h :=
  Option.ext fun e => by rw [← faithful'.exact.inverse, ← faithful.exact.inverse, same]

/-- A registry with its store tells what another one tells, but its list of types goes on. -/
structure Repeats (r : Registry) (s : Store) (more : List TypeExpr) (r' : Registry) (s' : Store) : Prop where
  families : r'.families.keys = r.families.keys
  types : r'.types.map Prod.fst = r.types.map Prod.fst
  lookup : ∀ e, r'.lookup s' e = r.lookup s e
  hostType : ∀ h, r'.hostType? h = r.hostType? h
  order : r'.order = r.order ++ more

/-! ### Tallied runs -/

/-- The type that is registered along with a family. -/
def singleTypes (t : Template) : List TypeExpr := if t.isScalar then [.concrete t.family] else []

/-- The family, if registering it has registered a single type. -/
def tallied (t : Template) : Except RegistrationError Unit → List String
  | .ok _ => if t.isScalar then [t.family] else []
  | .error _ => []

/-- A run, with the families whose single types it registers, each as often as it does. -/
inductive Tallied : Registry → Store → Multiset CellId → List String → Prop where
  | start (version : Version) (stack : ℕ) : Tallied .empty (.ofVersion version stack) 0 []
  | addFamily {r : Registry} {s : Store} {o : Multiset CellId} {names : List String} (run : Tallied r s o names)
      (t : Template) (listed : t ∈ Catalog.templates) :
      Tallied (r.addFamily t s).2.1 (r.addFamily t s).2.2 o (names ++ tallied t (r.addFamily t s).1)
  | instantiate {r : Registry} {s : Store} {o : Multiset CellId} {names : List String} (run : Tallied r s o names)
      (t : TypeExpr) : Tallied (r.instantiate t s).2.1 (r.instantiate t s).2.2 o names
  | other {r : Registry} {s s' : Store} {o o' : Multiset CellId} {names : List String} (run : Tallied r s o names)
      (acts : s.Acts (r.cells + o) s' (r.cells + o')) : Tallied r s' o' names

theorem Tallied.run (run : Tallied r s o names) : Run r s o := by
  induction run with
  | start version stack => exact .start version stack
  | addFamily _ t listed ih => exact ih.addFamily t listed
  | instantiate _ t ih => exact ih.instantiate t
  | other _ acts ih => exact ih.other acts

/-- Every run can be tallied. -/
theorem Run.tallied (run : Run r s o) : ∃ names, Tallied r s o names := by
  induction run with
  | start version stack => exact ⟨[], .start version stack⟩
  | addFamily _ t listed ih => exact ih.elim fun names tallied => ⟨_, tallied.addFamily t listed⟩
  | instantiate _ t ih => exact ih.elim fun names tallied => ⟨names, tallied.instantiate t⟩
  | other _ acts ih => exact ih.elim fun names tallied => ⟨names, tallied.other acts⟩

/-- What every step of a tallied run keeps. -/
structure Accounted (r : Registry) (s : Store) (names : List String) : Prop where
  /-- What a family needed to be registered is still there. -/
  supported : ∀ {name f}, r.families.get? name = some f →
    (∀ q ∈ f.template.requires, r.families.has q = true) ∧ Satisfied f.template s.version
  distinct : (r.types.map Prod.fst).Nodup
  singles : ∀ name, r.order.count (.concrete name) = names.count name
  instances : ∀ e, e.params ≠ [] → r.order.count e ≤ 1

theorem accounted_start (version : Version) (stack : ℕ) : Accounted .empty (.ofVersion version stack) [] where
  supported found := by cases found
  distinct := List.nodup_nil
  singles _ := rfl
  instances _ _ := Nat.zero_le 1

namespace Accounted

theorem congr (accounted : r.Accounted s names) (version : s'.version = s.version) : r.Accounted s' names :=
  { accounted with supported := fun found => version ▸ accounted.supported found }

theorem withFamily (accounted : r.Accounted s names) (free : hindrance? t r s = none) (c : CellId) (h : Handle) :
    (r.withFamily t c h).Accounted s (names ++ if t.isScalar then [t.family] else []) where
  supported {name f} found := by
    have grows : ∀ {q}, r.families.has q = true → (r.withFamily t c h).families.has q = true := fun there => by
      rw [has_withFamily, there, Bool.or_true]
    rw [families_withFamily, Keyed.get?_insert] at found
    split at found
    · obtain rfl := Option.some.inj found
      obtain ⟨required, satisfied, _⟩ := hindrance?_eq_none.mp free
      exact ⟨fun q hq => grows (required q hq), satisfied⟩
    · obtain ⟨required, satisfied⟩ := accounted.supported found
      exact ⟨fun q hq => grows (required q hq), satisfied⟩
  distinct := by
    show ((if t.isScalar then r.withType (.concrete t.family) c h else r).types.map Prod.fst).Nodup
    split
    · exact Assoc.nodup_keys_insert accounted.distinct _ c
    · exact accounted.distinct
  singles name := by
    rw [order_withFamily, List.count_append, List.count_append, accounted.singles]
    split <;> simp [List.count_singleton, TypeExpr.concrete]
  instances e some := by
    have other : ∀ name, TypeExpr.concrete name ≠ e := fun name same => some (same ▸ rfl)
    rw [order_withFamily, List.count_append]
    have none : (if t.isScalar then [TypeExpr.concrete t.family] else []).count e = 0 := by
      split <;> simp [other]
    rw [none]
    exact accounted.instances e some

theorem addFamily (accounted : r.Accounted s names) (t : Template) :
    (r.addFamily t s).2.1.Accounted (r.addFamily t s).2.2 (names ++ tallied t (r.addFamily t s).1) := by
  have ways := adds t r s
  generalize r.addFamily t s = result at ways ⊢
  cases ways with
  | hindered => rwa [tallied, List.append_nil]
  | extension _ extension =>
    have compound : t.isScalar = false := by
      rw [Template.isExtension, ← Option.not_isNone, Bool.not_eq_true'] at extension
      rw [Template.isScalar, extension, Bool.and_false]
    simpa [tallied, compound] using accounted
  | made free _ _ => exact (accounted.withFamily free _ _).congr (by simp)

theorem instantiate (accounted : r.Accounted s names) (faithful : r.Faithful s) (e : TypeExpr)
    (version : (r.instantiate e s).2.2.version = s.version) :
    (r.instantiate e s).2.1.Accounted (r.instantiate e s).2.2 names := by
  have ways := faithful.instantiates e
  generalize r.instantiate e s = result at ways version ⊢
  cases ways with
  | known | unknownFamily | arityMismatch | unregisteredParameter => exact accounted
  | faulted => exact accounted.congr version
  | @made f h s' new there arity =>
    have some := faithful.params_ne_nil there arity new
    have absent : r.order.count e = 0 := by
      rw [List.count_eq_zero, ← faithful.listed, new]
      exact Bool.false_ne_true
    refine Accounted.congr ⟨accounted.supported, Assoc.nodup_keys_insert accounted.distinct e _, fun name => ?_,
      fun f someF => ?_⟩ version
    · have other : e ≠ .concrete name := fun same => some (same ▸ rfl)
      rw [← accounted.singles]
      show (r.withType e s'.nextCell h).order.count _ = _
      simp [List.count_append, other]
    · show (r.withType e s'.nextCell h).order.count f ≤ 1
      rw [order_withType, List.count_append]
      by_cases same : e = f
      · subst same
        simp [absent]
      · simpa [same] using accounted.instances f someF

end Accounted

theorem Tallied.accounted (run : Tallied r s o names) : r.Accounted s names := by
  induction run with
  | start version stack => exact accounted_start version stack
  | addFamily _ t _ ih => exact ih.addFamily t
  | instantiate run t ih => exact ih.instantiate run.run.kept.faithful t (run.run.kept.acts_instantiate t).version
  | other _ acts ih => exact ih.congr acts.version

/-! ### Registering a family again -/

/-- A family of the catalog is registered by its own template. -/
theorem Faithful.get?_of_has (faithful : r.Faithful s) (listed : t ∈ Catalog.templates)
    (there : r.families.has t.family = true) : ∃ c, r.families.get? t.family = some ⟨t, c⟩ := by
  obtain ⟨⟨u, c⟩, found⟩ := Option.isSome_iff_exists.mp there
  obtain ⟨listed', _, named⟩ := Catalog.own?_eq_some (faithful.families found).1
  obtain rfl := List.inj_on_of_nodup_map Catalog.distinct listed' listed named
  exact ⟨c, found⟩

/-- **Registering a family again succeeds and changes nothing that the registry tells, but for the list of types**, to
the end of which a single type is put once more. -/
theorem Kept.repeats (kept : r.Kept s o) (accounted : r.Accounted s names) (listed : t ∈ Catalog.templates)
    (there : r.families.has t.family = true) :
    ∃ r' s', r.addFamily t s = (.ok (), r', s') ∧ r.Repeats s (singleTypes t) r' s' := by
  obtain ⟨c, found⟩ := kept.faithful.get?_of_has listed there
  obtain ⟨own, h, provided, _⟩ := kept.faithful.families found
  have free : hindrance? t r s = none := by
    obtain ⟨required, satisfied⟩ := accounted.supported found
    exact hindrance?_eq_none.mpr ⟨required, satisfied, .inr (by simp [provided])⟩
  have added := addFamily_of_found free (Catalog.own?_eq_some own).2.1 provided
  have kept' := kept.addFamily listed
  have keeps := (kept.acts_addFamily t).keepsTypes
  rw [added] at kept' keeps
  have types := map_fst_withFamily_of_registered s.nextCell h fun scalar => kept.faithful.scalars found scalar
  have lookup := kept.faithful.lookup_congr kept'.faithful keeps types
  exact ⟨_, _, added, families_withFamily .. ▸ Keyed.keys_insert_of_has kept.ascends there _, types, lookup,
    kept.faithful.hostType?_congr kept'.faithful lookup, order_withFamily ..⟩

/-- **What registering again adds, and how often each type is listed.** A family that is registered can be registered
again at any time, and after that the registry tells the same, but for one more mention of a single type in the list.
The list shows every registered type: one with parameters once, and a single type as often as its family was registered.
So it shows each type once, and is as long as the registry, exactly if no single type was registered twice. -/
theorem Run.types_listed (run : Run r s o) :
    (∀ t ∈ Catalog.templates, r.families.has t.family = true →
      ∃ r' s', r.addFamily t s = (.ok (), r', s') ∧ r.Repeats s (singleTypes t) r' s') ∧
    (∀ e, e ∈ r.order ↔ r.isRegistered e = true) ∧
    (∃ names, Tallied r s o names) ∧
    ∀ names, Tallied r s o names →
      (∀ e, r.isRegistered e = true → r.order.count e = if e.params = [] then names.count e.name else 1) ∧
      (r.order.Nodup ↔ names.Nodup) ∧ (r.order.length = r.types.length ↔ names.Nodup) := by
  have kept := run.kept
  have listed : ∀ e, e ∈ r.order ↔ r.isRegistered e = true := fun e => kept.faithful.listed.symm
  obtain ⟨names, tallied⟩ := run.tallied
  refine ⟨fun t => kept.repeats tallied.accounted, listed, ⟨names, tallied⟩, fun names tallied => ?_⟩
  have accounted := tallied.accounted
  have nodup : r.order.Nodup ↔ names.Nodup := by
    rw [List.nodup_iff_count_le_one, List.nodup_iff_count_le_one]
    refine ⟨fun once name => accounted.singles name ▸ once _, fun once e => ?_⟩
    obtain ⟨name, _ | ⟨p, ps⟩⟩ := e
    · exact (accounted.singles name).trans_le (once name)
    · exact accounted.instances _ (List.cons_ne_nil p ps)
  refine ⟨fun e registered => ?_, nodup, ?_⟩
  · obtain ⟨name, _ | ⟨p, ps⟩⟩ := e
    · exact accounted.singles name
    · have there : 0 < r.order.count ⟨name, p :: ps⟩ := List.count_pos_iff.mpr ((listed _).mpr registered)
      exact le_antisymm (accounted.instances _ (List.cons_ne_nil p ps)) there
  · -- the types of the registry are the members of the list, each once
    have dedup : r.order.dedup.Perm (r.types.map Prod.fst) :=
      (List.perm_ext_iff_of_nodup (List.nodup_dedup _) accounted.distinct).mpr fun e => by
        rw [List.mem_dedup, listed, isRegistered_iff_mem]
    have length : r.types.length = r.order.dedup.length := by rw [dedup.length_eq, List.length_map]
    rw [length, ← nodup, ← List.dedup_eq_self]
    exact ⟨fun same => (List.dedup_sublist _).eq_of_length same.symm, fun same => by rw [same]⟩

/-- With integers registered once and an array of them, each type is listed once; with integers registered again, they
are listed twice. -/
theorem Run.types_listed_intAgain : ∃ r s r' s', Tallied r s 0 ["Int"] ∧ r.order.Nodup ∧
    r.Repeats s [.concrete "Int"] r' s' ∧ Tallied r' s' 0 ["Int", "Int"] ∧ ¬ r'.order.Nodup ∧
    r'.order.count ⟨"Array", [.concrete "Int"]⟩ = 1 := by
  have int : (Catalog.find? "Int").get (by decide +kernel) ∈ Catalog.templates := List.get_find?_mem ..
  have generic : (Catalog.find? "Array").get (by decide +kernel) ∈ Catalog.templates := List.get_find?_mem ..
  have providing : Tallied .empty (.providing (.ofNumbers 4 11 0) ["long", "pm::Array"]) 0 [] :=
    (Tallied.start _ _).other (Ledger.moves_providing (.ofNumbers 4 11 0) ["long", "pm::Array"] _).evolves.acts
  obtain ⟨r, s, names, once, rfl, there, array⟩ : ∃ r s names, Tallied r s 0 names ∧ names = ["Int"] ∧
      r.families.has "Int" = true ∧ r.isRegistered ⟨"Array", [.concrete "Int"]⟩ = true :=
    ⟨_, _, _, ((providing.addFamily _ int).addFamily _ generic).instantiate ⟨"Array", [.concrete "Int"]⟩,
      by decide +kernel, by decide +kernel, by decide +kernel⟩
  obtain ⟨again, -, -, listed⟩ := once.run.types_listed
  obtain ⟨r', s', added, repeats⟩ := again _ int there
  have twice : Tallied r' s' 0 ["Int", "Int"] := by
    have twice := once.addFamily _ int
    rwa [added] at twice
  obtain ⟨-, -, -, listed'⟩ := twice.run.types_listed
  have array' : r'.isRegistered ⟨"Array", [.concrete "Int"]⟩ = true :=
    isRegistered_iff_mem.mpr (repeats.types ▸ isRegistered_iff_mem.mp array)
  exact ⟨r, s, r', s', once, (listed _ once).2.1.mpr (by decide), repeats, twice,
    fun nodup => absurd ((listed' _ twice).2.1.mp nodup) (by decide), (listed' _ twice).1 _ array'⟩

/-- Registering a single type again makes the list of types longer than the registry. -/
theorem single_type_listed_twice : ∃ r s, ∃ int ∈ Catalog.templates, Run r s 0 ∧ r.families.has int.family = true ∧
    r.order = [.concrete "Int"] ∧
    (r.addFamily int s).1 = .ok () ∧ (r.addFamily int s).2.1.order = [.concrete "Int", .concrete "Int"] ∧
    (r.addFamily int s).2.1.types.length = 1 := by
  have int : (Catalog.find? "Int").get (by decide +kernel) ∈ Catalog.templates := List.get_find?_mem ..
  exact ⟨_, _, _, int, (Run.providing (.ofNumbers 4 11 0) ["long"] 10000).addFamily _ int, by decide +kernel,
    by decide +kernel, by decide +kernel, by decide +kernel, by decide +kernel⟩

end Registry

end ForeignBridge
