import ForeignBridge.Proofs.Activity
import ForeignBridge.Proofs.RegistryRuns
import ForeignBridge.Proofs.Translations
import ForeignBridge.Proofs.TypeOutcomes

/-! # The names of foreign types

The store describes a type object by going through its slots, and the table of spellings puts a text together from the
names in a type expression. For an expression and the handle that it stands for, both come to the same text
(`description_denotation?`, by induction on the expression), and the description ends, since the expression does.

A registered type stands for its foreign type as long as the cells of the registry are held. So the two texts agree
after registration and ever after, whatever else goes on (`Bridge.register_names`). -/

namespace ForeignBridge

namespace Store

variable {s : Store}

/-- The table spells every family of the catalog as the foreign library does. -/
theorem foreign_own? {name : String} {t : Template} (own : Catalog.own? name = some t) :
    Spellings.standard.foreign.get? name = some t.foreignName := by
  have canonical : ∀ t ∈ Catalog.templates, Spellings.canonical t.foreignName = t.foreignName := by decide +kernel
  obtain ⟨listed, declares, rfl⟩ := Catalog.own?_eq_some own
  rw [← canonical t listed]
  exact Spellings.foreign_of_declaring Spellings.unambiguous_catalog.families
    (List.mem_filter.mpr ⟨listed, by simp [declares]⟩)

theorem describeWithin_family {name : String} {h : Handle} (found : s.object? h = some (.family name)) (n : ℕ) :
    s.describeWithin (n + 1) h = some (some name) :=
  describeWithin_of_some found

theorem describeWithin_type {head h : Handle} {params : List Handle} {name : String} {texts : List String} {n : ℕ}
    (found : s.object? h = some (.type head params)) (named : s.describeWithin n head = some (some name))
    (given : params ≠ []) (described : params.mapM (s.describeWithin n) = some (texts.map some)) :
    s.describeWithin (n + 1) h = some (some (name ++ "<" ++ ",".intercalate texts ++ ">")) := by
  have some : params.isEmpty = false := by simpa using given
  rw [describeWithin_of_some found]
  simp [describeObject, named, some, described]

mutual

/-- An expression is described as it is translated. -/
theorem describeWithin_denotation? (interned : s.Interned) : ∀ {e : TypeExpr} {h : Handle} {n : ℕ},
    s.denotation? e = some h → e.depth < n →
    ∃ text, s.describeWithin n h = some (some text) ∧ Spellings.standard.toForeign e = .ok text
  | ⟨name, params⟩, h, n + 1, stands, deep => by
      obtain ⟨t, head, own, provided, rest⟩ := denotation?_eq_some.mp stands
      have spelled : Spellings.standard.foreign.get? name = some t.foreignName := foreign_own? own
      have family := interned.family.mp provided
      split at rest
      · next none =>
        obtain rfl : params = [] := none
        subst rest
        have translated : Spellings.standard.toForeign ⟨name, []⟩ = .ok (TypeExpr.applyText t.foreignName []) :=
          Spellings.toForeign_mk spelled rfl
        exact ⟨t.foreignName, describeWithin_family family n, translated⟩
      · next some =>
        obtain ⟨hs, given, applied⟩ := rest
        have deep' : TypeExpr.depthParams params ≤ n := Nat.lt_succ_iff.mp deep
        obtain ⟨texts, described, translated⟩ := describeWithin_denotations? interned given deep'
        obtain ⟨p, ps, rfl⟩ := List.exists_cons_of_ne_nil some
        obtain ⟨first, others, _, _, rfl⟩ := denotations?_cons_eq_some.mp given
        obtain ⟨m, rfl⟩ : ∃ m, n = m + 1 := Nat.exists_eq_add_one.mpr (by simp [TypeExpr.depthParams] at deep'; omega)
        have named := describeWithin_family family m
        refine ⟨_, describeWithin_type (interned.applied.mp applied) named (by simp) described, ?_⟩
        rw [Spellings.toForeign_mk spelled translated, TypeExpr.applyText, if_neg]
        rintro rfl
        obtain ⟨_, _, _, _, same⟩ := Spellings.toForeignAll_cons_eq_ok translated
        cases same

theorem describeWithin_denotations? (interned : s.Interned) : ∀ {ps : List TypeExpr} {hs : List Handle} {n : ℕ},
    s.denotations? ps = some hs → TypeExpr.depthParams ps ≤ n →
    ∃ texts : List String, hs.mapM (s.describeWithin n) = some (texts.map some) ∧
      Spellings.standard.toForeignAll ps = .ok texts
  | [], hs, n, stand, _ => by
      obtain rfl := Option.some.inj stand
      exact ⟨[], rfl, rfl⟩
  | p :: ps, hs, n, stand, deep => by
      obtain ⟨h, rest, first, others, rfl⟩ := denotations?_cons_eq_some.mp stand
      obtain ⟨here, later⟩ := max_le_iff.mp deep
      obtain ⟨text, described, translated⟩ := describeWithin_denotation? interned first here
      obtain ⟨texts, described', translated'⟩ := describeWithin_denotations? interned others later
      refine ⟨text :: texts, by rw [List.mapM_cons, described, described']; rfl, ?_⟩
      simp only [Spellings.toForeignAll, translated, translated']

end

/-- **What a type expression stands for is described as the table translates the expression.** -/
theorem description_denotation? (interned : s.Interned) {e : TypeExpr} {h : Handle} (stands : s.denotation? e = some h) :
    ∃ text, s.description h = some (some text) ∧ Spellings.standard.toForeign e = .ok text := by
  obtain ⟨text, described, translated⟩ := describeWithin_denotation? interned stands (Nat.lt_succ_self _)
  exact ⟨text, description_of_describeWithin described, translated⟩

end Store

namespace Registry

variable {r : Registry} {s : Store} {o : Multiset CellId}

/-- Each registered type is described by the foreign runtime as the table of spellings translates it. -/
def Named (r : Registry) (s : Store) : Prop :=
  ∀ e, r.isRegistered e = true → ∃ h text, r.lookup s e = some h ∧ (s.describe h).1 = some text ∧
    Spellings.standard.toForeign e = .ok text

theorem Faithful.named (faithful : r.Faithful s) : r.Named s := by
  intro e registered
  obtain ⟨h, found⟩ := lookup_of_registered s registered
  have stands := (faithful.lookup_eq_some.mp found).2
  obtain ⟨text, described, translated⟩ := Store.description_denotation? faithful.interned stands
  have ended := Store.describe_of_describes (Store.describes_iff.mpr described)
  exact ⟨h, text, found, congrArg Prod.fst ended, translated⟩

end Registry

/-! ### The whole registration -/

section register

variable {b : Bridge} (settings : RegistrationSettings) {s : Store}

/-- **The foreign runtime and the table of spellings agree on the names of the registered types**: after registration,
and after any activity that leaves the cells of the registry alone, such as that of any program that holds other
cells. It begins in any store that operations lead to (`Store.Interned`), without a pending fault. -/
theorem Bridge.register_names (uninitialized : b.phase = .uninitialized) (interned : s.Interned)
    (clean : s.fault = none) :
    ∃ done, (b.register settings s).1 = .ok done ∧ done.registry.Named (b.register settings s).2 ∧
      (∀ o o' t, s.Balanced (o + s.boxed) →
        (b.register settings s).2.Acts (done.registry.cells + o) t (done.registry.cells + o') →
        done.registry.Named t) ∧
      (∀ (outer held : List CellId) (program : Program), s.Balanced ((outer ++ held : List CellId) + s.boxed) →
        done.registry.Named (Store.run Store.call program ⟨(b.register settings s).2, held⟩).2.store) := by
  rw [register_of_uninitialized settings s uninitialized]
  have later : ∀ {o o' t}, s.Balanced (o + s.boxed) →
      (Registration.registerAll Catalog.templates settings s).store.Acts
        ((Registration.registerAll Catalog.templates settings s).registry.cells + o) t
        ((Registration.registerAll Catalog.templates settings s).registry.cells + o') →
      (Registration.registerAll Catalog.templates settings s).registry.Named t := fun balanced acts =>
    ((Registration.kept_registerAll settings interned balanced).other acts).faithful.named
  refine ⟨_, rfl, (Registration.calm_registerAll settings interned clean).faithful.named, fun o o' t => later,
    fun outer held program balanced => ?_⟩
  have traces := traces_run traces_call
    ((Registration.registerAll Catalog.templates settings s).registry.cells ++ outer) program
    (r := ⟨(Registration.registerAll Catalog.templates settings s).store, held⟩)
  have acts := traces.acts
  simp only [List.append_assoc, ← Multiset.coe_add _ (outer ++ _)] at acts
  exact later balanced acts

/-- Arrays of integers go by their foreign name, also after a collection. -/
theorem Bridge.register_names_afterCollection :
    let array : TypeExpr := ⟨"Array", [.concrete "Int"]⟩
    let s : Store := .providing (.ofNumbers 4 11 0) ["long", "pm::Array"]
    let b : Bridge := .ofPolicy .full
    b.phase = .uninitialized ∧ s.Interned ∧ s.fault = none ∧ ∃ done, (b.register .default s).1 = .ok done ∧
      let later := (Store.run Store.call (.ask .collect fun _ => .done .null) ⟨(b.register .default s).2, []⟩).2.store
      ∃ h, done.registry.lookup later array = some h ∧ (later.describe h).1 = some "pm::Array<long>" := by
  intro array s b
  have interned : s.Interned := Store.interned_providing _ _ _
  have clean : s.fault = none := by decide +kernel
  have balanced : s.Balanced (([] ++ [] : List CellId) + s.boxed) :=
    (Ledger.moves_providing (.ofNumbers 4 11 0) ["long", "pm::Array"] _).evolves.acts.balanced
      (Ledger.sound_initial _ _).balanced
  obtain ⟨done, ok, _, _, named⟩ := register_names (b := b) .default (s := s) rfl interned clean
  refine ⟨rfl, interned, clean, done, ok, ?_⟩
  have registered : done.registry.isRegistered array = true := by
    rw [register_of_uninitialized .default s (b := b) rfl] at ok
    obtain rfl := Except.ok.inj ok
    have there : ∀ name ∈ ["Int", "Array"],
        name ∈ (Registration.registerAll Catalog.templates .default s).registered := by
      have plain : ∀ name ∈ ["Int", "Array"], ∃ t ∈ Catalog.templates, t.family = name ∧ t.requires = [] ∧
          t.since = none ∧ (s.family? t.foreignName).isSome = true := by decide +kernel
      intro name given
      obtain ⟨t, listed, rfl, requires, since, provided⟩ := plain name given
      refine ((Registration.judged_registerAll .default s).registered_iff_available t listed).mpr ?_
      exact .intro listed rfl (fun text same => by simp [since] at same) (by simp [requires]) (.inr provided)
    have scalar : ∃ t ∈ Catalog.templates, t.isScalar = true ∧ t.family = "Int" := by decide +kernel
    have generic : ∃ t ∈ Catalog.templates, t.isExtension = false ∧ t.family = "Array" ∧ t.arity = 1 ∧
        "Array<Int>" ∈ t.instances := by decide +kernel
    obtain ⟨int, listed, single, named⟩ := scalar
    obtain ⟨t, listed', own, named', arity, given⟩ := generic
    refine (Registration.isRegistered_iff_registrable interned clean array).mpr ?_
    have read : TypeExpr.ofString "Array<Int>" = .ok array := by decide +kernel
    refine .applied (.listed listed' given read) (named' ▸ there "Array" (by simp)) listed' own named'
      (there "Array" (by simp)) arity fun p hp => ?_
    obtain rfl := List.mem_singleton.mp hp
    exact named ▸ .single listed single (named ▸ there "Int" (by simp))
  obtain ⟨h, text, found, described, translated⟩ :=
    named [] [] (.ask .collect fun _ => .done .null) balanced array registered
  have spelled : Spellings.standard.toForeign array = .ok "pm::Array<long>" := by decide +kernel
  exact ⟨h, found, described.trans (congrArg some (Except.ok.inj (translated.symm.trans spelled)))⟩

end register

end ForeignBridge
