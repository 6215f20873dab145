import ForeignBridge.Proofs.Cycles
import ForeignBridge.Proofs.FamilyPass

/-! # What a requirement means

The order of registration reads the requirements of a template without its own name and counts extensions among the
families. Registering reads all of them, and asks for each whether the registry has that family; an extension is only
checked and never gets there. So even where nothing else stands in the way (`Prepared`), a family that needs an
extension, be it through others, is not registered, and the failure names a requirement. A family that needs no
extension is registered in its turn, unless it requires itself or needs one that does. Those are never registered
(`not_mem_registered_of_reflexive`). -/

namespace ForeignBridge

namespace Registry

variable {t : Template} {r : Registry} {s : Store}

/-- Where the version is satisfied and the foreign type is there, only a requirement can be missing. -/
theorem hindrance?_of_provided (satisfied : Satisfied t s.version)
    (provided : t.isExtension = true ∨ (s.family? t.foreignName).isSome = true) :
    hindrance? t r s = (t.requires.find? (!r.families.has ·)).map .requires := by
  cases missing : t.requires.find? (!r.families.has ·) with
  | some f =>
    rw [hindrance?, obstacle?, missing]
    rfl
  | none =>
    have all : ∀ f ∈ t.requires, r.families.has f = true := by simpa using missing
    exact hindrance?_eq_none.mpr ⟨all, satisfied, provided⟩

end Registry

namespace Registration

/-- Distinct names, no requirement of a family that is not among them, and no cycle; the store provides all foreign
types and satisfies all version requirements. -/
structure Prepared (templates : List Template) (s : Store) : Prop where
  distinct : (templates.map Template.family).Nodup
  inside : ∀ t ∈ templates, ∀ d ∈ t.dependencies, d ∈ templates.map Template.family
  acyclic : (Placement.ofTemplates templates).cyclic = []
  provided : ∀ t ∈ templates, t.isExtension = false → (s.family? t.foreignName).isSome = true
  satisfied : ∀ t ∈ templates, Registry.Satisfied t s.version

/-- The families registered in their order, beginning with an empty registry. -/
def registerInOrder (templates : List Template) (s : Store) : Progress :=
  registerFamilies templates (Placement.ofTemplates templates).order ⟨.empty, s, [], []⟩

/-- A template declares the first family and requires the second one. -/
def Needs (templates : List Template) (family other : String) : Prop :=
  ∃ t ∈ templates, t.family = family ∧ other ∈ t.requires

/-- The family requires an extension, be it through others. -/
def NeedsExtension (templates : List Template) (family : String) : Prop :=
  ∃ u ∈ templates, u.isExtension = true ∧ Relation.TransGen (Needs templates) family u.family

/-- The family requires itself, or one that requires itself, be it through others. -/
def NeedsReflexive (templates : List Template) (family : String) : Prop :=
  ∃ other, Relation.ReflTransGen (Needs templates) family other ∧ Needs templates other other

variable {templates placed : List Template} {s : Store} {p : Progress}

theorem NeedsExtension.head {family other : String} (needs : Needs templates family other)
    (further : NeedsExtension templates other) : NeedsExtension templates family := by
  obtain ⟨u, listed, extension, path⟩ := further
  exact ⟨u, listed, extension, .head needs path⟩

theorem NeedsReflexive.head {family other : String} (needs : Needs templates family other)
    (further : NeedsReflexive templates other) : NeedsReflexive templates family := by
  obtain ⟨last, path, reflexive⟩ := further
  exact ⟨last, .head needs path, reflexive⟩

/-! ### The registry in the end -/

section Passed

variable (places : Placed templates placed) (passed : Passed s [] placed p)

include places passed

/-- The registry has the registered families, but for the extensions. -/
theorem Passed.has_iff {name : String} : p.registry.families.has name = true ↔
    ∃ u ∈ templates, u.family = name ∧ u.isExtension = false ∧ name ∈ p.registered := by
  rw [passed.has]
  constructor
  · rintro ⟨u, hu, rfl, own, free⟩
    have listed := (places.mem u).mp hu
    exact ⟨u, listed, rfl, own, (passed.mem_registered places listed).mpr free⟩
  · rintro ⟨u, listed, rfl, own, there⟩
    exact ⟨u, (places.mem u).mpr listed, rfl, own, (passed.mem_registered places listed).mp there⟩

/-- What a registered family needs is registered too, and no extension. -/
theorem Passed.of_needs {family other : String} (there : family ∈ p.registered)
    (path : Relation.TransGen (Needs templates) family other) :
    ∃ u ∈ templates, u.family = other ∧ u.isExtension = false ∧ other ∈ p.registered := by
  have step : ∀ {a b : String}, a ∈ p.registered → Needs templates a b →
      ∃ u ∈ templates, u.family = b ∧ u.isExtension = false ∧ b ∈ p.registered := by
    rintro a b there ⟨t, listed, rfl, required⟩
    have free := (passed.mem_registered places listed).mp there
    exact (passed.has_iff places).mp ((Registry.hindrance?_eq_none.mp free).1 b required)
  induction path with
  | single needs => exact step there needs
  | tail _ needs ih =>
    obtain ⟨_, _, _, _, there⟩ := ih
    exact step there needs

theorem Passed.not_mem_registered {family : String} (needs : NeedsExtension templates family) :
    family ∉ p.registered := by
  obtain ⟨u, listed, extension, path⟩ := needs
  intro there
  obtain ⟨v, listed', same, own, _⟩ := passed.of_needs places there path
  obtain rfl := List.inj_on_of_nodup_map places.nodup ((places.mem v).mpr listed') ((places.mem u).mpr listed) same
  rw [own] at extension
  cases extension

theorem Passed.not_mem_of_reflexive {family : String} (needs : NeedsReflexive templates family) :
    family ∉ p.registered := by
  obtain ⟨_, path, t, listed, rfl, required⟩ := needs
  intro there
  have last : t.family ∈ p.registered := by
    rcases Relation.reflTransGen_iff_eq_or_transGen.mp path with same | path
    · exact same ▸ there
    · obtain ⟨_, _, _, _, last⟩ := passed.of_needs places there path
      exact last
  exact passed.proper t ((places.mem t).mpr listed) ((passed.mem_registered places listed).mp last) required

end Passed

/-- **A family that requires itself is never registered**, nor is one that needs such a family, whatever the store
provides. The order of registration does not show this, as it does not count the own name among the requirements. -/
theorem not_mem_registered_of_reflexive (distinct : (templates.map Template.family).Nodup)
    (acyclic : (Placement.ofTemplates templates).cyclic = []) (s : Store) {family : String}
    (needs : NeedsReflexive templates family) : family ∉ (registerInOrder templates s).registered := by
  obtain ⟨placed, places, passed⟩ := Registration.exists_passed distinct acyclic s []
  exact passed.not_mem_of_reflexive places needs

/-! ### Prepared templates -/

namespace Prepared

variable (prepared : Prepared templates s) (places : Placed templates placed) (passed : Passed s [] placed p)

include prepared

theorem hindrance?_eq {t : Template} (listed : t ∈ templates) (r : Registry) :
    Registry.hindrance? t r s = (t.requires.find? (!r.families.has ·)).map .requires := by
  refine Registry.hindrance?_of_provided (prepared.satisfied t listed) ?_
  cases own : t.isExtension with
  | true => exact .inl rfl
  | false => exact .inr (prepared.provided t listed own)

theorem exists_passed : ∃ placed, Placed templates placed ∧ Passed s [] placed (registerInOrder templates s) :=
  Registration.exists_passed prepared.distinct prepared.acyclic s []

include places passed

/-- The failure of a family that is not registered names one of its requirements. -/
theorem exists_failure {t : Template} (listed : t ∈ templates) (missing : t.family ∉ p.registered) :
    ∃ f ∈ t.requires, familyFailure t (.requires f) ∈ p.failures := by
  have hindered := (passed.mem_registered places listed).not.mp missing
  obtain ⟨cause, found⟩ := Option.ne_none_iff_exists'.mp hindered
  have read := found
  rw [prepared.hindrance?_eq listed, Option.map_eq_some_iff] at read
  obtain ⟨f, first, rfl⟩ := read
  refine ⟨f, List.mem_of_find?_eq_some first, ?_⟩
  rw [passed.failures, List.nil_append]
  exact List.mem_filterMap.mpr ⟨t, (places.mem t).mpr listed, by rw [found, Option.map_some]⟩

/-- A family that needs no extension is registered, unless it requires itself or needs one that does: what it requires
comes before it. -/
theorem mem_registered {t : Template} (listed : t ∈ templates) (plain : ¬ NeedsExtension templates t.family)
    (proper : ¬ NeedsReflexive templates t.family) : t.family ∈ p.registered := by
  have greedy := Placement.greedy_ofTemplates prepared.distinct
  have all : ∀ family ∈ (Placement.ofTemplates templates).order, ¬ NeedsExtension templates family →
      ¬ NeedsReflexive templates family → family ∈ p.registered := by
    refine greedy.induction prepared.distinct fun family placed ih plain proper => ?_
    obtain ⟨t, listed, rfl⟩ := List.mem_map.mp (greedy.subset placed)
    have required : ∀ f ∈ t.requires, p.registry.families.has f = true := by
      intro f required
      have needs : Needs templates t.family f := ⟨t, listed, rfl, required⟩
      have apart : f ≠ t.family := fun same => proper ⟨f, same ▸ .refl, same ▸ needs⟩
      have depends : f ∈ t.dependencies :=
        Ascending.mem_ofList.mpr (List.mem_filter.mpr ⟨required, by simpa using apart⟩)
      obtain ⟨u, listed', rfl⟩ := List.mem_map.mp (prepared.inside t listed f depends)
      have own : u.isExtension = false := by
        rw [← Bool.not_eq_true]
        exact fun extension => plain ⟨u, listed', extension, .single needs⟩
      have there := ih u.family ⟨t, listed, rfl, required, apart, List.mem_map_of_mem listed'⟩
        (fun further => plain (further.head needs)) fun further => proper (further.head needs)
      exact (passed.has_iff places).mpr ⟨u, listed', rfl, own, there⟩
    rw [passed.mem_registered places listed, prepared.hindrance?_eq listed, Option.map_eq_none_iff, List.find?_eq_none]
    simpa using required
  have there : t.family ∈ (Placement.ofTemplates templates).order := by
    rw [places.order]
    exact List.mem_map_of_mem ((places.mem t).mpr listed)
  exact all t.family there plain proper

omit places passed

/-- Where no extension is required and no family requires itself, the whole order is registered. -/
theorem registered_eq_order (plain : ∀ t ∈ templates, t.family ∉ t.requires ∧
      ∀ u ∈ templates, u.isExtension = true → u.family ∉ t.requires) :
    (registerInOrder templates s).registered = (Placement.ofTemplates templates).order ∧
      (registerInOrder templates s).failures = [] := by
  obtain ⟨placed, places, passed⟩ := prepared.exists_passed
  have noExtension : ∀ family, ¬ NeedsExtension templates family := by
    rintro family ⟨u, listed, extension, path⟩
    obtain ⟨_, _, t, listed', _, required⟩ := Relation.TransGen.tail'_iff.mp path
    exact (plain t listed').2 u listed extension required
  have noReflexive : ∀ family, ¬ NeedsReflexive templates family := by
    rintro family ⟨_, _, t, listed, rfl, required⟩
    exact (plain t listed).1 required
  have free : ∀ t ∈ placed, Registry.hindrance? t (registerInOrder templates s).registry s = none := fun t ht =>
    have listed := (places.mem t).mp ht
    (passed.mem_registered places listed).mp
      (prepared.mem_registered places passed listed (noExtension t.family) (noReflexive t.family))
  constructor
  · have all : placed.filter (fun t => (Registry.hindrance? t (registerInOrder templates s).registry s).isNone) =
        placed := List.filter_eq_self.mpr fun t ht => by rw [free t ht, Option.isNone_none]
    rw [passed.registered, all, places.order]
  · rw [passed.failures, List.nil_append]
    exact List.filterMap_eq_nil_iff.mpr fun t ht => by rw [free t ht, Option.map_none]

end Prepared

/-! ### Extensions are no families -/

/-- A family that requires an extension. -/
def extensionRequired : List Template :=
  [.generic "Base" "base" 1, .extension "Extra" "Base", (Template.generic "User" "user" 1).requiring ["Extra"]]

theorem prepared_extensionRequired :
    Prepared extensionRequired (.providing (.ofNumbers 4 11 0) ["base", "user"]) where
  distinct := by decide
  inside := by decide +kernel
  acyclic := by decide +kernel
  provided := by decide +kernel
  satisfied t listed text since := by
    have unbounded : ∀ t ∈ extensionRequired, t.since = none := by decide
    rw [unbounded t listed] at since
    cases since

/-- The extension is registered before the family that requires it, and yet that one is refused. -/
theorem registerInOrder_extensionRequired :
    Prepared extensionRequired (.providing (.ofNumbers 4 11 0) ["base", "user"]) ∧
    (Placement.ofTemplates extensionRequired).order = ["Base", "Extra", "User"] ∧
    (registerInOrder extensionRequired (.providing (.ofNumbers 4 11 0) ["base", "user"])).registered =
      ["Base", "Extra"] ∧
    (registerInOrder extensionRequired (.providing (.ofNumbers 4 11 0) ["base", "user"])).failures =
      [⟨.family, "User", .unavailable "User" (.requires "Extra")⟩] :=
  ⟨prepared_extensionRequired, by decide +kernel, by decide +kernel, by decide +kernel⟩

/-- **Registering in order comes down to extensions.** Of prepared templates, a family that needs an extension is not
registered, and its failure names a requirement. One that needs none is registered; about those that require themselves,
and those that need such a one, nothing is said. So if no template requires an extension or itself, the whole order is
registered. -/
theorem Prepared.registers (prepared : Prepared templates s) :
    (∀ t ∈ templates, NeedsExtension templates t.family →
      t.family ∉ (registerInOrder templates s).registered ∧
      ∃ f ∈ t.requires, familyFailure t (.requires f) ∈ (registerInOrder templates s).failures) ∧
    (∀ t ∈ templates, ¬ NeedsExtension templates t.family → ¬ NeedsReflexive templates t.family →
      t.family ∈ (registerInOrder templates s).registered) ∧
    ((∀ t ∈ templates, t.family ∉ t.requires ∧ ∀ u ∈ templates, u.isExtension = true → u.family ∉ t.requires) →
      (registerInOrder templates s).registered = (Placement.ofTemplates templates).order ∧
      (registerInOrder templates s).failures = []) := by
  obtain ⟨placed, places, passed⟩ := prepared.exists_passed
  refine ⟨fun t listed needs => ?_, fun t listed => prepared.mem_registered places passed listed,
    prepared.registered_eq_order⟩
  have missing := passed.not_mem_registered places needs
  exact ⟨missing, prepared.exists_failure places passed listed missing⟩

/-- The family that requires the extension is not registered, and the base family is. -/
theorem Prepared.registers_extensionRequired :
    Prepared extensionRequired (.providing (.ofNumbers 4 11 0) ["base", "user"]) ∧
    NeedsExtension extensionRequired "User" ∧
    "User" ∉ (registerInOrder extensionRequired (.providing (.ofNumbers 4 11 0) ["base", "user"])).registered ∧
    "Base" ∈ (registerInOrder extensionRequired (.providing (.ofNumbers 4 11 0) ["base", "user"])).registered := by
  have prepared := prepared_extensionRequired
  have needs : NeedsExtension extensionRequired "User" :=
    ⟨.extension "Extra" "Base", by decide, rfl, .single ⟨_, List.mem_of_getLast? rfl, rfl, by decide⟩⟩
  have free : ∀ other, ¬ Needs extensionRequired "Base" other := by
    rintro other ⟨t, listed, named, required⟩
    have none : ∀ t ∈ extensionRequired, t.family = "Base" → t.requires = [] := by decide
    rw [none t listed named] at required
    cases required
  obtain ⟨refused, registered, _⟩ := Prepared.registers prepared
  refine ⟨prepared, needs, (refused _ (List.mem_of_getLast? rfl) needs).1, ?_⟩
  refine registered (.generic "Base" "base" 1) (by decide) ?_ ?_
  · rintro ⟨u, _, _, path⟩
    obtain ⟨other, needs, _⟩ := Relation.TransGen.head'_iff.mp path
    exact free other needs
  · rintro ⟨other, path, reflexive⟩
    rcases path.cases_head with rfl | ⟨next, needs, _⟩
    · exact free "Base" reflexive
    · exact free next needs

end Registration

end ForeignBridge
