import ForeignBridge.Proofs.FamilyPass

/-! # Outcomes of families

Every family of the catalog is skipped, registered, or the subject of one failure. The registered ones are the least set
that is closed under what a family needs (`Available`), so what happens to one family matters only to those that
require it, directly or through others.

* In the catalog a family stands before those that require it (`Grounded`), so none of the kept ones is on a cycle and
  all are placed.
* The pass over the placed families records for each what keeps it from being registered, as judged by the registry in
  the end: a family that was tried is judged the same ever after (`Passed`).
* The pass over the instances adds nothing about families. -/

namespace ForeignBridge

/-! ### The catalog is grounded -/

/-- The names are distinct, and what a template requires is declared before it and is no extension. -/
structure Grounded (templates : List Template) : Prop where
  apart : templates.Pairwise fun t later => t.family ≠ later.family ∧ later.family ∉ t.requires
  irreflexive : ∀ t ∈ templates, t.family ∉ t.requires
  based : ∀ t ∈ templates, ∀ f ∈ t.requires, ∃ u ∈ templates, u.family = f ∧ u.isExtension = false

theorem Catalog.grounded : Grounded templates where
  apart := by decide +kernel
  irreflexive := by decide +kernel
  based := by decide +kernel

namespace Grounded

variable {templates : List Template}

theorem distinct (grounded : Grounded templates) : (templates.map Template.family).Nodup :=
  List.pairwise_map.mpr (grounded.apart.imp And.left)

/-- To prove something of every template, it may be assumed of those that it requires. -/
theorem induction (grounded : Grounded templates) {P : Template → Prop}
    (step : ∀ t ∈ templates, (∀ u ∈ templates, u.family ∈ t.requires → P u) → P t) : ∀ t ∈ templates, P t := by
  have all : ∀ before after, templates = before ++ after → ∀ t ∈ before, P t := by
    intro before
    induction before using List.reverseRecOn with
    | nil => exact fun _ _ t ht => by cases ht
    | append_singleton before x ih =>
      intro after split t ht
      have earlier := ih (x :: after) (by simpa using split)
      rcases List.mem_append.mp ht with old | new
      · exact earlier t old
      · obtain rfl := List.mem_singleton.mp new
        have listed : t ∈ templates := split ▸ List.mem_append_left _ ht
        refine step t listed fun u hu required => ?_
        rw [split, List.append_assoc] at hu
        rcases List.mem_append.mp hu with old | later
        · exact earlier u old
        · rcases List.mem_cons.mp later with rfl | later
          · exact absurd required (grounded.irreflexive _ listed)
          · have apart := grounded.apart
            rw [split, List.append_assoc] at apart
            have after := (List.pairwise_cons.mp (List.pairwise_append.mp apart).2.1).1 u later
            exact absurd required after.2
  exact fun t ht => all templates [] (List.append_nil _).symm t ht

end Grounded

namespace Registration

variable {templates : List Template} {settings : RegistrationSettings} {s : Store}

/-! ### Placing the kept families -/

theorem mem_kept {t : Template} : t ∈ kept templates settings ↔
    t ∈ templates ∧ settings.isDisabled t.family = false := by
  simp [kept]

theorem distinct_kept (grounded : Grounded templates) :
    ((kept templates settings).map Template.family).Nodup :=
  grounded.distinct.sublist (List.filter_sublist.map _)

theorem Placed.eq_of_family {placed : List Template} (places : Placed (kept Catalog.templates settings) placed)
    {t u : Template} (hu : u ∈ placed) (listed : t ∈ Catalog.templates) (same : u.family = t.family) : u = t :=
  List.inj_on_of_nodup_map Catalog.distinct (mem_kept.mp ((places.mem u).mp hu)).1 listed same

/-- No kept family is left over. -/
theorem cyclic_kept (grounded : Grounded templates) (settings : RegistrationSettings) :
    (Placement.ofTemplates (kept templates settings)).cyclic = [] := by
  have distinct : ((kept templates settings).map Template.family).Nodup := distinct_kept grounded
  have greedy := Placement.greedy_ofTemplates distinct
  have all : ∀ t ∈ templates, t ∈ kept templates settings →
      t.family ∈ (Placement.ofTemplates (kept templates settings)).order := by
    refine grounded.induction fun t _ ih listed => ?_
    by_contra left
    obtain ⟨d, depends, waits⟩ := greedy.waits listed left
    obtain ⟨required, _, declared⟩ := Placement.mem_inside.mp depends
    obtain ⟨u, listed', rfl⟩ := List.mem_map.mp declared
    exact waits (ih u (mem_kept.mp listed').1 required listed')
  refine List.eq_nil_iff_forall_not_mem.mpr fun f cyclic => ?_
  obtain ⟨known, left⟩ := (Placement.mem_cyclic distinct).mp cyclic
  obtain ⟨t, listed, rfl⟩ := List.mem_map.mp known
  exact left (all t (mem_kept.mp listed).1 listed)

/-! ### The pass over the instances -/

theorem families_instantiate (r : Registry) (e : TypeExpr) (s : Store) :
    (r.instantiate e s).2.1.families = r.families := by
  have ends := r.ends_instantiate e s
  generalize r.instantiate e s = result at ends ⊢
  cases ends <;> rfl

/-- What later requests leave as it is. -/
structure Leaves (p p' : Progress) : Prop where
  families : p'.registry.families = p.registry.families
  registered : p'.registered = p.registered
  failures : ∃ more : List Failure, (∀ f ∈ more, f.level = .type) ∧ p'.failures = p.failures ++ more

theorem Leaves.refl (p : Progress) : Leaves p p := ⟨rfl, rfl, [], by simp, by simp⟩

theorem Leaves.trans {p q w : Progress} (first : Leaves p q) (second : Leaves q w) : Leaves p w := by
  obtain ⟨more, level, failures⟩ := first.failures
  obtain ⟨more', level', failures'⟩ := second.failures
  refine ⟨second.families.trans first.families, second.registered.trans first.registered, more ++ more', ?_, ?_⟩
  · exact fun f hf => (List.mem_append.mp hf).elim (level f) (level' f)
  · rw [failures', failures, List.append_assoc]

theorem leaves_tryInstance (p : Progress) (i : Pending) : Leaves p (tryInstance p i) := by
  unfold tryInstance
  split
  · split
    · exact ⟨rfl, rfl, _, by simp, rfl⟩
    · exact .refl p
  · have same := families_instantiate p.registry i.type p.store
    generalize p.registry.instantiate i.type p.store = result at same ⊢
    obtain ⟨outcome, r', s'⟩ := result
    cases outcome with
    | ok made => exact ⟨same, rfl, [], by simp, by simp⟩
    | error e => exact ⟨same, rfl, _, by simp, rfl⟩

theorem leaves_instances (instances : List Pending) : ∀ p, Leaves p (instances.foldl tryInstance p) := by
  induction instances with
  | nil => exact Leaves.refl
  | cons i instances ih => exact fun p => (leaves_tryInstance p i).trans (ih _)

/-- The registry is faithful, and since the store `s` no fault came up and nothing was halted. -/
structure Calm (s : Store) (p : Progress) : Prop where
  faithful : p.registry.Faithful p.store
  clean : p.store.fault = none
  halted : p.store.halted = s.halted

theorem Calm.tryInstance {p : Progress} (calm : Calm s p) (i : Pending) : Calm s (tryInstance p i) := by
  unfold Registration.tryInstance
  split
  · split <;> exact ⟨calm.faithful, calm.clean, calm.halted⟩
  · have ways := calm.faithful.instantiates i.type
    have kept := calm.faithful.instantiate i.type
    generalize p.registry.instantiate i.type p.store = result at ways kept ⊢
    cases ways with
    | known | unknownFamily | arityMismatch | unregisteredParameter => exact ⟨calm.faithful, calm.clean, calm.halted⟩
    | faulted new pending => exact absurd calm.clean pending
    | @made f h s' new there arity registered keeps cells cleared halted =>
      have same := Store.protocol_holding h [] s'
      exact ⟨kept.1, (congrArg (·.1) same).trans cleared,
        ((congrArg (·.2.2) same).trans (halted calm.clean)).trans calm.halted⟩

theorem Calm.instances (instances : List Pending) : ∀ {p : Progress}, Calm s p →
    Calm s (instances.foldl Registration.tryInstance p) := by
  induction instances with
  | nil => exact id
  | cons i instances ih => exact fun calm => ih (calm.tryInstance i)

theorem Passed.calm {first : List Failure} {done : List Template} {p : Progress} (passed : Passed s first done p)
    (inside : done ⊆ Catalog.templates) (interned : s.Interned) (clean : s.fault = none) : Calm s p where
  faithful := passed.faithful interned inside
  clean := (Store.fault_of_protocol passed.protocol).trans clean
  halted := Store.halted_of_protocol passed.protocol

/-- A request is refused if its text cannot be read, if it belongs to no family, or if the settings leave its family
out. -/
theorem of_mem_refused {f : Failure} (there : f ∈ refused (requests templates settings)) :
    f.level = .type ∧ ((∃ e, f.error = .malformed e) ∨ (∃ name, f.error = .unknownFamily name) ∨
      ∃ family, f.error = .unavailable family .disabled) := by
  have request : Except.error f ∈ requests templates settings := by
    simp only [refused, List.mem_filterMap] at there
    obtain ⟨e | i, request, same⟩ := there
    · exact Option.some.inj same ▸ request
    · cases same
  rcases List.mem_append.mp request with listed | asked
  · obtain ⟨t, _, listed⟩ := List.mem_flatMap.mp listed
    obtain ⟨text, _, same⟩ := List.mem_map.mp listed
    split at same
    · cases same
    · exact Except.error.inj same ▸ ⟨rfl, .inl ⟨_, rfl⟩⟩
  · obtain ⟨e, _, same⟩ := List.mem_map.mp asked
    unfold configured at same
    split at same
    · exact Except.error.inj same ▸ ⟨rfl, .inr (.inl ⟨_, rfl⟩)⟩
    · split at same
      · exact Except.error.inj same ▸ ⟨rfl, .inr (.inr ⟨_, rfl⟩)⟩
      · cases same

/-! ### Both passes -/

/-- The failures about a family as a whole. -/
def failuresOf (failures : List Failure) (family : String) : List Failure :=
  failures.filter fun f => f.level == .family && f.subject == family

theorem failuresOf_of_level {failures : List Failure} (level : ∀ f ∈ failures, f.level = .type) (family : String) :
    failuresOf failures family = [] := by
  refine List.filter_eq_nil_iff.mpr fun f hf => ?_
  simp [level f hf]

/-- What the registration of the catalog has come to in the end. -/
structure Judged (settings : RegistrationSettings) (s : Store) (p : Progress) : Prop where
  order : p.registered.Sublist (Placement.ofTemplates (kept Catalog.templates settings)).order
  registered : ∀ t ∈ Catalog.templates, t.family ∈ p.registered ↔
    settings.isDisabled t.family = false ∧ Registry.hindrance? t p.registry s = none
  failures : ∀ t ∈ Catalog.templates, failuresOf p.failures t.family =
    if settings.isDisabled t.family then []
    else ((Registry.hindrance? t p.registry s).map (familyFailure t)).toList
  has : ∀ t ∈ Catalog.templates, t.isExtension = false →
    p.registry.families.has t.family = decide (t.family ∈ p.registered)
  nodup : p.registered.Nodup

/-- The pass over the families of the catalog. -/
theorem exists_passed_kept (settings : RegistrationSettings) (s : Store) (first : List Failure) :
    ∃ placed, Placed (kept Catalog.templates settings) placed ∧ Passed s first placed
      (registerFamilies (kept Catalog.templates settings)
        (Placement.ofTemplates (kept Catalog.templates settings)).order ⟨.empty, s, [], first⟩) :=
  exists_passed (distinct_kept Catalog.grounded) (cyclic_kept Catalog.grounded settings) s first

/-- **Registration brings up no fault**, and comes to an end. -/
theorem calm_registerAll (settings : RegistrationSettings) (interned : s.Interned) (clean : s.fault = none) :
    Calm s (registerAll Catalog.templates settings s) := by
  obtain ⟨placed, places, passed⟩ := exists_passed_kept settings s
    (refused (requests Catalog.templates settings) ++
      cycleFailures (Placement.ofTemplates (kept Catalog.templates settings)))
  exact (passed.calm (fun t ht => (mem_kept.mp ((places.mem t).mp ht)).1) interned clean).instances _

theorem failuresOf_append (first second : List Failure) (family : String) :
    failuresOf (first ++ second) family = failuresOf first family ++ failuresOf second family :=
  List.filter_append first second

theorem failuresOf_cause (t : Template) (cause? : Option Unavailability) (family : String) :
    failuresOf (cause?.map (familyFailure t)).toList family =
      if t.family = family then (cause?.map (familyFailure t)).toList else [] := by
  cases cause? with
  | none => simp [failuresOf]
  | some cause => by_cases same : t.family = family <;> simp [failuresOf, familyFailure, same]

/-- Of failures recorded for templates of distinct names, one is about a family, or none. -/
theorem failuresOf_causes (cause? : Template → Option Unavailability) : ∀ {placed : List Template},
    (placed.map Template.family).Nodup → ∀ t,
    (t ∈ placed → failuresOf (placed.filterMap fun u => (cause? u).map (familyFailure u)) t.family =
      ((cause? t).map (familyFailure t)).toList) ∧
    (t.family ∉ placed.map Template.family →
      failuresOf (placed.filterMap fun u => (cause? u).map (familyFailure u)) t.family = [])
  | [], _, t => ⟨fun ht => absurd ht List.not_mem_nil, fun _ => rfl⟩
  | u :: placed, nodup, t => by
      obtain ⟨new, nodup⟩ := List.nodup_cons.mp nodup
      obtain ⟨present, absent⟩ := failuresOf_causes cause? nodup t
      have split : (u :: placed).filterMap (fun u => (cause? u).map (familyFailure u)) =
          ((cause? u).map (familyFailure u)).toList ++ placed.filterMap fun u => (cause? u).map (familyFailure u) := by
        rw [List.filterMap_cons]
        cases (cause? u).map (familyFailure u) <;> rfl
      rw [split, failuresOf_append, failuresOf_cause]
      constructor
      · intro ht
        rcases List.mem_cons.mp ht with rfl | ht
        · rw [if_pos rfl, absent new, List.append_nil]
        · have apart : u.family ≠ t.family := fun same => new (same ▸ List.mem_map_of_mem ht)
          rw [if_neg apart, present ht, List.nil_append]
      · intro outside
        rw [List.map_cons, List.mem_cons, not_or] at outside
        rw [if_neg (Ne.symm outside.1), absent outside.2, List.nil_append]

/-- **What registration says about families in the end.** -/
theorem judged_registerAll (settings : RegistrationSettings) (s : Store) :
    Judged settings s (registerAll Catalog.templates settings s) := by
  have noCycle : cycleFailures (Placement.ofTemplates (kept Catalog.templates settings)) = [] := by
    rw [cycleFailures, cyclic_kept Catalog.grounded settings, List.map_nil]
  have level : ∀ f ∈ refused (requests Catalog.templates settings), f.level = .type :=
    fun f there => (of_mem_refused there).1
  unfold registerAll
  dsimp only
  rw [noCycle, List.append_nil]
  generalize refused (requests Catalog.templates settings) = first at level ⊢
  obtain ⟨placed, places, passed⟩ := exists_passed_kept settings s first
  generalize registerFamilies _ _ _ = p at passed ⊢
  obtain ⟨families, registered, more, level', failures⟩ := leaves_instances
    (accepted (requests Catalog.templates settings)) p
  generalize (accepted (requests Catalog.templates settings)).foldl tryInstance p = q
    at families registered failures ⊢
  have judged : ∀ t, Registry.hindrance? t q.registry s = Registry.hindrance? t p.registry s := fun t =>
    Registry.hindrance?_congr (fun _ _ => by rw [families]) rfl (.inr rfl)
  have inPlaced : ∀ t ∈ Catalog.templates, t.family ∈ placed.map Template.family ↔ t ∈ placed := by
    intro t listed
    refine ⟨fun named => ?_, fun ht => List.mem_map_of_mem ht⟩
    obtain ⟨u, hu, same⟩ := List.mem_map.mp named
    exact places.eq_of_family hu listed same ▸ hu
  have kept_iff : ∀ t ∈ Catalog.templates, t ∈ placed ↔ settings.isDisabled t.family = false := fun t listed => by
    rw [places.mem, mem_kept, and_iff_right listed]
  have sublist : q.registered.Sublist (placed.map Template.family) := by
    rw [registered, passed.registered]
    exact List.filter_sublist.map _
  have mem : ∀ t ∈ Catalog.templates, t.family ∈ q.registered ↔
      settings.isDisabled t.family = false ∧ Registry.hindrance? t q.registry s = none := by
    intro t listed
    rw [registered, passed.registered, judged, ← kept_iff t listed]
    simp only [List.mem_map, List.mem_filter, Option.isNone_iff_eq_none]
    constructor
    · rintro ⟨u, ⟨hu, free⟩, same⟩
      obtain rfl := places.eq_of_family hu listed same
      exact ⟨hu, free⟩
    · exact fun both => ⟨t, both, rfl⟩
  refine ⟨places.order ▸ sublist, mem, fun t listed => ?_, fun t listed own => ?_, places.nodup.sublist sublist⟩
  · obtain ⟨present, absent⟩ := failuresOf_causes (fun u => Registry.hindrance? u p.registry s) places.nodup t
    rw [failures, passed.failures, failuresOf_append, failuresOf_append, failuresOf_of_level level,
      failuresOf_of_level level', List.nil_append, List.append_nil, judged]
    cases disabled : settings.isDisabled t.family with
    | true => exact absent fun named => by simp [(kept_iff t listed).mp ((inPlaced t listed).mp named)] at disabled
    | false => exact present ((kept_iff t listed).mpr disabled)
  · rw [Bool.eq_iff_iff, decide_eq_true_iff, mem t listed, families, passed.has, judged, ← kept_iff t listed]
    constructor
    · rintro ⟨u, hu, same, _, free⟩
      obtain rfl := places.eq_of_family hu listed same
      exact ⟨hu, free⟩
    · exact fun ⟨ht, free⟩ => ⟨t, ht, rfl, own, free⟩

end Registration

/-! ### What a family needs -/

/-- What becomes available under settings in a store: the least set of families that are kept, have their version
requirement satisfied, are provided unless they are extensions, and require only members of the set. -/
inductive Available (settings : RegistrationSettings) (s : Store) : String → Prop
  | intro {t : Template} (listed : t ∈ Catalog.templates) (kept : settings.isDisabled t.family = false)
      (satisfied : Registry.Satisfied t s.version) (requires : ∀ f ∈ t.requires, Available settings s f)
      (provided : t.isExtension = true ∨ (s.family? t.foreignName).isSome = true) : Available settings s t.family

/-- The first family requires the second one. -/
def Requires (family required : String) : Prop := ∃ t ∈ Catalog.templates, t.family = family ∧ required ∈ t.requires

/-- The failures about a family as a whole. -/
def Report.failuresOf (report : Report) (family : String) : List Failure :=
  Registration.failuresOf report.failures family

namespace Registration

variable {settings : RegistrationSettings} {s : Store} {p : Progress}

/-- A required family is registered if and only if it is in the registry: it is no extension. -/
theorem Judged.has_required (judged : Judged settings s p) {t : Template} (listed : t ∈ Catalog.templates) {f : String}
    (required : f ∈ t.requires) : p.registry.families.has f = decide (f ∈ p.registered) := by
  obtain ⟨u, listed', rfl, own⟩ := Catalog.grounded.based t listed f required
  exact judged.has u listed' own

theorem Judged.registered_iff_available (judged : Judged settings s p) : ∀ t ∈ Catalog.templates,
    t.family ∈ p.registered ↔ Available settings s t.family := by
  refine Catalog.grounded.induction fun t listed ih => ?_
  have required : (∀ f ∈ t.requires, p.registry.families.has f = true) ↔
      ∀ f ∈ t.requires, Available settings s f := by
    refine forall₂_congr fun f hf => ?_
    rw [judged.has_required listed hf, decide_eq_true_iff]
    obtain ⟨u, listed', rfl, _⟩ := Catalog.grounded.based t listed f hf
    exact ih u listed' hf
  rw [judged.registered t listed, Registry.hindrance?_eq_none, required]
  constructor
  · rintro ⟨kept, requires, satisfied, provided⟩
    exact .intro listed kept satisfied requires provided
  · intro available
    generalize named : t.family = family at available
    obtain @⟨u, listed', kept, satisfied, requires, provided⟩ := available
    obtain rfl := List.inj_on_of_nodup_map Catalog.distinct listed listed' named
    exact ⟨kept, requires, satisfied, provided⟩

section agree

variable {settings' : RegistrationSettings} {s' : Store} {p' : Progress} (judged : Judged settings s p)
  (judged' : Judged settings' s' p') (version : s'.version = s.version)

include judged judged' version

/-- Two registrations agree on families that they treat alike, if with each family they do so with what it requires. -/
theorem Judged.agree_on (alike : String → Prop)
    (closed : ∀ t ∈ Catalog.templates, alike t.family → ∀ f ∈ t.requires, alike f)
    (kept : ∀ t ∈ Catalog.templates, alike t.family →
      settings'.isDisabled t.family = settings.isDisabled t.family)
    (provided : ∀ t ∈ Catalog.templates, alike t.family → t.isExtension = false →
      (s'.family? t.foreignName).isSome = (s.family? t.foreignName).isSome) :
    ∀ t ∈ Catalog.templates, alike t.family →
      Registry.hindrance? t p'.registry s' = Registry.hindrance? t p.registry s ∧
        (t.family ∈ p'.registered ↔ t.family ∈ p.registered) := by
  refine Catalog.grounded.induction fun t listed ih here => ?_
  have same : Registry.hindrance? t p'.registry s' = Registry.hindrance? t p.registry s := by
    refine Registry.hindrance?_congr (fun f required => ?_) version ?_
    · rw [judged.has_required listed required, judged'.has_required listed required, decide_eq_decide]
      obtain ⟨u, listed', rfl, _⟩ := Catalog.grounded.based t listed f required
      exact (ih u listed' required (closed t listed here _ required)).2
    · cases own : t.isExtension with
      | true => exact .inl rfl
      | false => exact .inr (provided t listed here own)
  exact ⟨same, by rw [judged'.registered t listed, judged.registered t listed, same, kept t listed here]⟩

/-- Two registrations that differ in one family agree on every family that does not depend on it. -/
theorem Judged.agree {family : String}
    (kept : ∀ t ∈ Catalog.templates, t.family ≠ family →
      settings'.isDisabled t.family = settings.isDisabled t.family)
    (provided : ∀ t ∈ Catalog.templates, t.family ≠ family → t.isExtension = false →
      (s'.family? t.foreignName).isSome = (s.family? t.foreignName).isSome) :
    ∀ t ∈ Catalog.templates, ¬ Relation.ReflTransGen Requires t.family family →
      Registry.hindrance? t p'.registry s' = Registry.hindrance? t p.registry s ∧
        (t.family ∈ p'.registered ↔ t.family ∈ p.registered) := by
  have apart : ∀ {f : String}, ¬ Relation.ReflTransGen Requires f family → f ≠ family :=
    fun independent same => independent (same ▸ .refl)
  refine judged.agree_on judged' version (fun f => ¬ Relation.ReflTransGen Requires f family) ?_
    (fun t listed independent => kept t listed (apart independent))
    (fun t listed independent => provided t listed (apart independent))
  exact fun t listed independent f required further => independent (.head ⟨t, listed, rfl, required⟩ further)

end agree

end Registration

/-! ### The whole registration -/

section register

variable {b : Bridge} (settings : RegistrationSettings) (s : Store)

/-- A bridge that is not initialized registers the whole catalog. -/
theorem Bridge.register_of_uninitialized (uninitialized : b.phase = .uninitialized) :
    (b.register settings s) = (.ok ⟨{ b with phase := .ready },
      (Registration.registerAll Catalog.templates settings s).registry,
      Registration.report Catalog.templates settings (Registration.registerAll Catalog.templates settings s)⟩,
      (Registration.registerAll Catalog.templates settings s).store) := by
  unfold register begin
  rw [uninitialized]
  rfl

end register

end ForeignBridge
