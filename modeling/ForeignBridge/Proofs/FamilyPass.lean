import ForeignBridge.Proofs.Placements
import ForeignBridge.Proofs.Registering

/-! # The pass over the families

The families of any list of templates with distinct names are tried in the order of registration. If that order leaves
none over, all of them are placed, each after those that it requires (`Placed`). The pass then records for each what
keeps it from being registered, as judged by the registry in the end (`Passed`): a family that was tried is judged the
same ever after, for what it requires was tried before, unless it requires itself, and then it is not registered. -/

namespace ForeignBridge

namespace Registration

variable {templates : List Template} {s : Store}

/-! ### Placing all families -/

/-- The templates in the order in which they are tried. -/
structure Placed (templates placed : List Template) : Prop where
  order : (Placement.ofTemplates templates).order = placed.map Template.family
  nodup : (placed.map Template.family).Nodup
  mem : ∀ t, t ∈ placed ↔ t ∈ templates
  /-- No template is required by one that comes before. -/
  before : ∀ {front t back}, placed = front ++ t :: back → ∀ u ∈ front, t.family ∉ u.requires

theorem exists_map_eq {α β : Type} (f : α → β) {l : List α} : ∀ {m : List β}, m ⊆ l.map f →
    ∃ l' : List α, l' ⊆ l ∧ m = l'.map f
  | [], _ => ⟨[], List.nil_subset _, rfl⟩
  | y :: m, inside => by
      obtain ⟨here, rest⟩ := List.cons_subset.mp inside
      obtain ⟨x, hx, rfl⟩ := List.mem_map.mp here
      obtain ⟨l', hl, rfl⟩ := exists_map_eq f rest
      exact ⟨x :: l', List.cons_subset.mpr ⟨hx, hl⟩, rfl⟩

/-- **All families are placed**, each after those that it requires, unless some are on a cycle or behind one. -/
theorem exists_placed (distinct : (templates.map Template.family).Nodup)
    (complete : (Placement.ofTemplates templates).cyclic = []) : ∃ placed, Placed templates placed := by
  have greedy := Placement.greedy_ofTemplates distinct
  obtain ⟨placed, inside, order⟩ := exists_map_eq Template.family greedy.subset
  have nodup : (placed.map Template.family).Nodup := order ▸ greedy.nodup List.nodup_nil
  refine ⟨placed, order, nodup, fun t => ⟨fun ht => inside ht, fun listed => ?_⟩, ?_⟩
  · have there : t.family ∈ (Placement.ofTemplates templates).order := by
      by_contra left
      have cyclic := (Placement.mem_cyclic distinct).mpr ⟨List.mem_map_of_mem listed, left⟩
      rw [complete] at cyclic
      cases cyclic
    rw [order] at there
    obtain ⟨u, hu, same⟩ := List.mem_map.mp there
    exact List.inj_on_of_nodup_map distinct (inside hu) listed same ▸ hu
  · intro front t back split u hu required
    obtain ⟨first, between, rfl⟩ := List.append_of_mem hu
    rw [split, List.append_assoc, List.map_append] at nodup
    have listed : t ∈ templates := inside (split ▸ by simp)
    have listed' : u ∈ templates := inside (split ▸ by simp)
    have apart : t.family ≠ u.family := by
      have nodup := (List.nodup_append.mp nodup).2.1
      rw [List.cons_append, List.map_cons, List.nodup_cons] at nodup
      exact fun same => nodup.1 (same ▸ List.mem_map_of_mem (by simp))
    have depends : t.family ∈ Placement.inside templates u :=
      Placement.mem_inside.mpr ⟨required, apart, List.mem_map_of_mem listed⟩
    -- then `t` stands before `u` as well
    have cut : (Placement.ofTemplates templates).order =
        first.map Template.family ++ u.family :: (between ++ t :: back).map Template.family := by simp [order, split]
    have earlier := greedy.dependencies_before distinct listed' cut _ depends
    exact (List.nodup_append.mp nodup).2.2 _ (by simpa using earlier) t.family (by simp) rfl

/-- The order in which they are tried is determined. -/
theorem Placed.unique (distinct : (templates.map Template.family).Nodup) {placed placed' : List Template}
    (places : Placed templates placed) (places' : Placed templates placed') : placed = placed' := by
  have names : placed.map Template.family = placed'.map Template.family := places.order.symm.trans places'.order
  refine List.ext_getElem (by simpa using congrArg List.length names) fun n bound bound' => ?_
  have same : placed[n].family = placed'[n].family := by
    simpa [bound, bound'] using congrArg (fun names => names[n]?) names
  exact List.inj_on_of_nodup_map distinct ((places.mem _).mp (List.getElem_mem bound))
    ((places'.mem _).mp (List.getElem_mem bound')) same

/-! ### One template after the other -/

theorem find?_reverse (distinct : (templates.map Template.family).Nodup) {t : Template} (listed : t ∈ templates) :
    templates.reverse.find? (·.family == t.family) = some t := by
  have some : (templates.reverse.find? (·.family == t.family)).isSome :=
    List.find?_isSome.mpr ⟨t, List.mem_reverse.mpr listed, by simp⟩
  obtain ⟨u, found⟩ := Option.isSome_iff_exists.mp some
  have listed' := List.mem_reverse.mp (List.mem_of_find?_eq_some found)
  have same := List.find?_some found
  rw [found, List.inj_on_of_nodup_map distinct listed' listed (by simpa using same)]

/-- Each name is looked up again, and gives its template. -/
theorem registerFamilies_map (distinct : (templates.map Template.family).Nodup) {placed : List Template}
    (inside : placed ⊆ templates) (p : Progress) :
    registerFamilies templates (placed.map Template.family) p = placed.foldl (fun p t => tryFamily t p) p := by
  unfold registerFamilies
  induction placed generalizing p with
  | nil => rfl
  | cons t placed ih =>
    obtain ⟨listed, inside⟩ := List.cons_subset.mp inside
    rw [List.map_cons, List.foldl_cons, List.foldl_cons, find?_reverse distinct listed]
    exact ih inside (tryFamily t p)

/-- The failure of a family. -/
def familyFailure (t : Template) (cause : Unavailability) : Failure := ⟨.family, t.family, .unavailable t.family cause⟩

/-- What was done once the templates of a list were tried, judged by the registry that there is then. -/
structure Passed (s : Store) (first : List Failure) (done : List Template) (p : Progress) : Prop where
  supply : p.store.families = s.families
  version : p.store.version = s.version
  protocol : p.store.protocol = s.protocol
  faithful : s.Interned → done ⊆ Catalog.templates → p.registry.Faithful p.store
  registered : p.registered = (done.filter fun t => (Registry.hindrance? t p.registry s).isNone).map Template.family
  failures : p.failures =
    first ++ done.filterMap fun t => (Registry.hindrance? t p.registry s).map (familyFailure t)
  /-- What was registered did not require itself. -/
  proper : ∀ t ∈ done, Registry.hindrance? t p.registry s = none → t.family ∉ t.requires
  has : ∀ name, p.registry.families.has name = true ↔
    ∃ t ∈ done, t.family = name ∧ t.isExtension = false ∧ Registry.hindrance? t p.registry s = none
  types : ∀ e, p.registry.isRegistered e = true ↔
    ∃ t ∈ done, t.isScalar = true ∧ Registry.hindrance? t p.registry s = none ∧ e = .concrete t.family
  order : p.registry.order =
    (done.filter fun t => t.isScalar && (Registry.hindrance? t p.registry s).isNone).map fun t => .concrete t.family

theorem passed_nil (s : Store) (first : List Failure) : Passed s first [] ⟨.empty, s, [], first⟩ where
  supply := rfl
  version := rfl
  protocol := rfl
  faithful interned _ := Registry.faithful_empty interned
  registered := rfl
  failures := (List.append_nil first).symm
  proper t ht := by cases ht
  has name := by simp [Registry.empty, Keyed.has, Keyed.get?]
  types e := by simp [Registry.isRegistered, Registry.cell?, Registry.empty]
  order := rfl

/-- What trying one template comes to, in terms of what keeps it from being registered. -/
structure Tried (t : Template) (p p' : Progress) : Prop where
  supply : p'.store.families = p.store.families
  version : p'.store.version = p.store.version
  protocol : p'.store.protocol = p.store.protocol
  /-- A template of the catalog the name of which is new leaves a faithful registry. -/
  faithful : t ∈ Catalog.templates → p.registry.families.has t.family = false →
    p.registry.isRegistered (.concrete t.family) = false → p.registry.Faithful p.store →
    p'.registry.Faithful p'.store
  registered : p'.registered =
    p.registered ++ if (Registry.hindrance? t p.registry p.store).isNone then [t.family] else []
  failures : p'.failures =
    p.failures ++ ((Registry.hindrance? t p.registry p.store).map (familyFailure t)).toList
  has : ∀ name, p'.registry.families.has name = true ↔ p.registry.families.has name = true ∨
    (t.family = name ∧ t.isExtension = false ∧ Registry.hindrance? t p.registry p.store = none)
  types : ∀ e, p'.registry.isRegistered e = true ↔ p.registry.isRegistered e = true ∨
    (t.isScalar = true ∧ Registry.hindrance? t p.registry p.store = none ∧ e = .concrete t.family)
  order : p'.registry.order = p.registry.order ++
    if t.isScalar && (Registry.hindrance? t p.registry p.store).isNone then [.concrete t.family] else []

theorem tried_tryFamily (t : Template) (p : Progress) : Tried t p (tryFamily t p) := by
  have ways := Registry.adds t p.registry p.store
  have faithful : t ∈ Catalog.templates → p.registry.Faithful p.store → ∀ r' s',
      p.registry.addFamily t p.store = (.ok (), r', s') → p.registry.displacedBy t = [] → r'.Faithful s' :=
    fun listed faithful r' s' ok none => faithful.addFamily listed ok (.inr none)
  unfold tryFamily
  generalize p.registry.addFamily t p.store = result at ways faithful ⊢
  cases ways with
  | hindered free =>
    exact ⟨rfl, rfl, rfl, fun _ _ _ => id, by simp [free], by simp [free, familyFailure], by simp [free],
      by simp [free], by simp [free]⟩
  | extension free own =>
    have scalar : t.isScalar = false := by
      simp only [Template.isExtension] at own
      simp [Template.isScalar, own]
    exact ⟨rfl, rfl, rfl, fun _ _ _ => id, by simp [free], by simp [free], by simp [own], by simp [scalar],
      by simp [scalar]⟩
  | made free own found =>
    refine ⟨?_, ?_, ?_, fun listed absent untyped before => ?_, by simp [free], by simp [free],
      fun name => ?_, fun e => ?_, ?_⟩
    · exact (Store.sameTypes_releaseAll ..).families.trans (Store.sameTypes_holding ..).families
    · exact (Store.version_releaseAll ..).trans (Store.version_holding ..)
    · exact (Store.protocol_releaseAll ..).trans (Store.protocol_holding ..)
    · refine faithful listed before _ _ rfl ?_
      simp only [Keyed.has, Option.isSome_eq_false_iff, Option.isNone_iff_eq_none] at absent
      simp only [Registry.isRegistered, Option.isSome_eq_false_iff, Option.isNone_iff_eq_none] at untyped
      simp [Registry.displacedBy, absent, untyped]
    · dsimp only
      rw [Registry.has_withFamily, Bool.or_eq_true, beq_iff_eq, or_comm, @eq_comm _ name]
      simp [own, free]
    · dsimp only
      rw [Registry.isRegistered_withFamily, or_comm]
      simp [free]
    · dsimp only
      rw [Registry.order_withFamily]
      simp [free]

section append

variable {first : List Failure} {done : List Template} {p p' : Progress} {t : Template}

/-- A new name is not in the registry. -/
theorem Passed.absent (passed : Passed s first done p) (new : ∀ u ∈ done, u.family ≠ t.family) :
    p.registry.families.has t.family = false := by
  rw [← Bool.not_eq_true, passed.has]
  exact fun ⟨u, hu, same, _⟩ => new u hu same

/-- One more template is tried. None that was tried before requires it, so their judgement stays. -/
theorem Passed.append (passed : Passed s first done p) (tried : Tried t p p') (new : ∀ u ∈ done, u.family ≠ t.family)
    (unneeded : ∀ u ∈ done, t.family ∉ u.requires) : Passed s first (done ++ [t]) p' := by
  have absent := passed.absent new
  have untyped : p.registry.isRegistered (.concrete t.family) = false := by
    rw [← Bool.not_eq_true, passed.types]
    exact fun ⟨u, hu, _, _, same⟩ => new u hu (congrArg TypeExpr.name same).symm
  have judged := Registry.hindrance?_of_families (r := p.registry) (t := t) passed.supply passed.version
  -- a template that requires itself is not registered
  have proper : Registry.hindrance? t p.registry p.store = none → t.family ∉ t.requires := by
    intro free required
    have there := (Registry.hindrance?_eq_none.mp free).1 _ required
    rw [absent] at there
    cases there
  have stays : ∀ u ∈ done ++ [t], Registry.hindrance? u p'.registry s = Registry.hindrance? u p.registry s := by
    refine fun u hu => Registry.hindrance?_congr (fun f required => ?_) rfl (.inr rfl)
    rw [Bool.eq_iff_iff, tried.has]
    refine or_iff_left ?_
    rintro ⟨rfl, _, free⟩
    rcases List.mem_append.mp hu with old | here
    · exact unneeded u old required
    · obtain rfl := List.mem_singleton.mp here
      exact proper free required
  have before : ∀ u ∈ done, Registry.hindrance? u p'.registry s = Registry.hindrance? u p.registry s :=
    fun u hu => stays u (List.mem_append_left _ hu)
  have here : Registry.hindrance? t p'.registry s = Registry.hindrance? t p.registry p.store :=
    (stays t (by simp)).trans judged.symm
  exact
    { supply := tried.supply.trans passed.supply
      version := tried.version.trans passed.version
      protocol := tried.protocol.trans passed.protocol
      faithful := fun interned inside => tried.faithful (inside (by simp)) absent untyped
        (passed.faithful interned fun u hu => inside (List.mem_append_left _ hu))
      registered := by
        have same : done.filter (fun u => (Registry.hindrance? u p'.registry s).isNone) =
            done.filter fun u => (Registry.hindrance? u p.registry s).isNone :=
          List.filter_congr fun u hu => by rw [before u hu]
        rw [tried.registered, passed.registered, List.filter_append, same, List.map_append, ← here]
        cases found : Registry.hindrance? t p'.registry s <;> simp [found]
      failures := by
        have same : done.filterMap (fun u => (Registry.hindrance? u p'.registry s).map (familyFailure u)) =
            done.filterMap fun u => (Registry.hindrance? u p.registry s).map (familyFailure u) :=
          List.filterMap_congr fun u hu => by rw [before u hu]
        rw [tried.failures, passed.failures, List.filterMap_append, same, List.append_assoc, ← here]
        cases found : Registry.hindrance? t p'.registry s <;> simp [found]
      proper := fun u hu free => by
        rcases List.mem_append.mp hu with old | last
        · exact passed.proper u old ((before u old).symm.trans free)
        · obtain rfl := List.mem_singleton.mp last
          exact proper (here.symm.trans free)
      has := fun name => by
        rw [tried.has, passed.has, ← here]
        simp only [List.mem_append, List.mem_singleton, or_and_right, exists_or, exists_eq_left]
        exact or_congr_left (exists_congr fun u => and_congr_right fun hu => by rw [before u hu])
      types := fun e => by
        rw [tried.types, passed.types, ← here]
        simp only [List.mem_append, List.mem_singleton, or_and_right, exists_or, exists_eq_left]
        exact or_congr_left (exists_congr fun u => and_congr_right fun hu => by rw [before u hu])
      order := by
        have same : done.filter (fun u => u.isScalar && (Registry.hindrance? u p'.registry s).isNone) =
            done.filter fun u => u.isScalar && (Registry.hindrance? u p.registry s).isNone :=
          List.filter_congr fun u hu => by rw [before u hu]
        rw [tried.order, passed.order, List.filter_append, same, List.map_append, ← here]
        cases found : Registry.hindrance? t p'.registry s <;> cases scalar : t.isScalar <;> simp [found, scalar] }

end append

/-- The pass over templates of distinct names, none of which is required by one before it. -/
theorem passed_foldl {first : List Failure} : ∀ (rest : List Template) {done : List Template} {p : Progress},
    Passed s first done p → ((done ++ rest).map Template.family).Nodup →
    (∀ {front t back}, done ++ rest = front ++ t :: back → ∀ u ∈ front, t.family ∉ u.requires) →
    Passed s first (done ++ rest) (rest.foldl (fun p t => tryFamily t p) p)
  | [], done, p, passed, _, _ => by simpa using passed
  | t :: rest, done, p, passed, nodup, unneeded => by
      have new : ∀ u ∈ done, u.family ≠ t.family := by
        intro u hu
        rw [List.map_append] at nodup
        exact (List.nodup_append.mp nodup).2.2 _ (List.mem_map_of_mem hu) _ (by simp)
      have further := passed.append (tried_tryFamily t p) new (unneeded rfl)
      rw [List.append_cons] at nodup unneeded ⊢
      exact passed_foldl rest further nodup unneeded

/-- **The pass over all families**, if none of them is left over. -/
theorem exists_passed (distinct : (templates.map Template.family).Nodup)
    (complete : (Placement.ofTemplates templates).cyclic = []) (s : Store) (first : List Failure) :
    ∃ placed, Placed templates placed ∧ Passed s first placed
      (registerFamilies templates (Placement.ofTemplates templates).order ⟨.empty, s, [], first⟩) := by
  obtain ⟨placed, places⟩ := exists_placed distinct complete
  refine ⟨placed, places, ?_⟩
  rw [places.order, registerFamilies_map distinct fun t => (places.mem t).mp]
  exact passed_foldl placed (passed_nil s first) places.nodup places.before

/-- The registered families are those that nothing keeps from it in the end. -/
theorem Passed.mem_registered {first : List Failure} {placed : List Template} {p : Progress}
    (passed : Passed s first placed p) (places : Placed templates placed) {t : Template} (listed : t ∈ templates) :
    t.family ∈ p.registered ↔ Registry.hindrance? t p.registry s = none := by
  rw [passed.registered]
  simp only [List.mem_map, List.mem_filter, Option.isNone_iff_eq_none]
  constructor
  · rintro ⟨u, ⟨hu, free⟩, same⟩
    obtain rfl := List.inj_on_of_nodup_map places.nodup hu ((places.mem t).mpr listed) same
    exact free
  · exact fun free => ⟨t, ⟨(places.mem t).mpr listed, free⟩, rfl⟩

end Registration

end ForeignBridge
