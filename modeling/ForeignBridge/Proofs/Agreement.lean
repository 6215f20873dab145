import ForeignBridge.Proofs.Fingerprints
import ForeignBridge.Proofs.TypeOutcomes

/-! # Agreement of registrations

What registration comes to depends on the version of the foreign side, on which families of the catalog it provides, and
on which families and instances the settings name. It depends on nothing else in the store, and the handles may all
differ.

* The families are tried in one order, and what keeps a family from being registered is the same for both registries
  (`Passed.agree`).
* The types in the end are those that can be registered, which does not depend on the stores. What the second pass adds
  is sorted, so its order is determined as well (`Attempted.agree`).
* A complaint about a request can be told from the registry in the end. The requests are the same up to order and
  repetition, hence so are the complaints. -/

namespace ForeignBridge

/-! ### What registration depends on -/

/-- The settings leave out the same families and ask for the same instances, in whatever order and however often. -/
structure RegistrationSettings.SameMembers (a b : RegistrationSettings) : Prop where
  disabled : ∀ f, f ∈ a.disabled ↔ f ∈ b.disabled
  instances : ∀ e, e ∈ a.instances ↔ e ∈ b.instances

/-- The foreign sides report the same version and provide the same families of the catalog. -/
structure Store.SameSupply (s s' : Store) : Prop where
  version : s'.version = s.version
  provided : ∀ t ∈ Catalog.templates, t.isExtension = false →
    (s'.family? t.foreignName).isSome = (s.family? t.foreignName).isSome

/-- Two registrations came to the same outcome, up to the order in which failures are listed. -/
structure Registered.Agree (a b : Registered) : Prop where
  order : a.report.order = b.report.order
  registered : a.report.registered = b.report.registered
  skipped : a.report.skipped = b.report.skipped
  types : a.registry.order = b.registry.order
  failures : ∀ f, f ∈ a.report.failures ↔ f ∈ b.report.failures
  fingerprint : a.report.fingerprint = b.report.fingerprint

namespace RegistrationSettings.SameMembers

open Registration

variable {a b : RegistrationSettings} (same : a.SameMembers b)

include same

theorem isDisabled (family : String) : b.isDisabled family = a.isDisabled family := by
  rw [Bool.eq_iff_iff]
  simp [RegistrationSettings.isDisabled, same.disabled]

theorem kept : kept Catalog.templates b = kept Catalog.templates a :=
  List.filter_congr fun t _ => by rw [same.isDisabled]

theorem skipped : skipped Catalog.templates b = skipped Catalog.templates a :=
  congrArg (List.map Template.family) (List.filter_congr fun t _ => same.isDisabled t.family)

theorem mem_requests (request : Except Failure Pending) :
    request ∈ requests Catalog.templates b ↔ request ∈ requests Catalog.templates a := by
  have configured : configured Catalog.templates b = configured Catalog.templates a := by
    funext e
    unfold Registration.configured
    simp only [same.isDisabled]
  rw [requests, requests, same.kept, configured]
  simp only [List.mem_append, List.mem_map, same.instances]

theorem registrable {registered : List String} {e : TypeExpr} :
    Registrable b registered e ↔ Registrable a registered e :=
  ⟨.mono fun e => (same.instances e).mpr, .mono fun e => (same.instances e).mp⟩

end RegistrationSettings.SameMembers

namespace Registration

/-! ### The passes -/

/-- The pass over the families. What it adds to the failures is the same in both registrations. -/
theorem Passed.agree {s s' : Store} {before before' : List Failure} {placed : List Template} {p p' : Progress}
    (passed : Passed s before placed p) (passed' : Passed s' before' placed p')
    (alike : ∀ t ∈ placed, Registry.hindrance? t p'.registry s' = Registry.hindrance? t p.registry s) :
    p'.registered = p.registered ∧ p'.registry.order = p.registry.order ∧
      ∃ more, p.failures = before ++ more ∧ p'.failures = before' ++ more := by
  refine ⟨?_, ?_, _, passed.failures, ?_⟩
  · rw [passed'.registered, passed.registered]
    exact congrArg _ (List.filter_congr fun t ht => by rw [alike t ht])
  · rw [passed'.order, passed.order]
    exact congrArg _ (List.filter_congr fun t ht => by rw [alike t ht])
  · rw [passed'.failures]
    exact congrArg _ (List.filterMap_congr fun t ht => by rw [alike t ht])

/-- The pass over the requests. Where it comes to the same types, it adds them in the same order. -/
theorem Attempted.agree {first first' p p' : Progress} {tried tried' : List Pending}
    (attempted : Attempted first tried p) (attempted' : Attempted first' tried' p')
    (order : first'.registry.order = first.registry.order)
    (types : ∀ e, e ∈ p'.registry.order ↔ e ∈ p.registry.order) :
    p'.registry.order = p.registry.order := by
  obtain ⟨new, further, ascends, fresh⟩ := attempted.order
  obtain ⟨new', further', ascends', fresh'⟩ := attempted'.order
  rw [order] at further' fresh'
  have added : ∀ e, e ∈ new ↔ e ∈ p.registry.order ∧ e ∉ first.registry.order := fun e => by
    rw [further, List.mem_append, or_and_right, and_not_self_iff, false_or, iff_self_and]
    exact fun he => (fresh e he).1
  have added' : ∀ e, e ∈ new' ↔ e ∈ p'.registry.order ∧ e ∉ first.registry.order := fun e => by
    rw [further', List.mem_append, or_and_right, and_not_self_iff, false_or, iff_self_and]
    exact fun he => (fresh' e he).1
  have same : new' = new := ascends'.eq_of_mem_iff ascends fun e => by rw [added, added', types]
  rw [further', further, same]

/-- A complaint depends on the registered families, the registered types and the templates of the families. -/
theorem complaint?_congr {registered : List String} {r r' : Registry}
    (types : ∀ e, r'.isRegistered e = r.isRegistered e)
    (templates : ∀ name,
      (r'.families.get? name).map RegisteredFamily.template = (r.families.get? name).map RegisteredFamily.template)
    (i : Pending) : complaint? registered r' i = complaint? registered r i := by
  unfold complaint?
  rw [objection?_congr types templates]

/-- **Registrations of the catalog agree.** -/
theorem registerAll_agree {settings settings' : RegistrationSettings} {s s' : Store} (interned : s.Interned)
    (interned' : s'.Interned) (clean : s.fault = none) (clean' : s'.fault = none) (supply : s.SameSupply s')
    (same : settings.SameMembers settings') :
    let p := registerAll Catalog.templates settings s
    let p' := registerAll Catalog.templates settings' s'
    p'.registered = p.registered ∧ p'.registry.order = p.registry.order ∧
      ∀ f, f ∈ p'.failures ↔ f ∈ p.failures := by
  have judged := judged_registerAll settings s
  have judged' := judged_registerAll settings' s'
  have registrable := @isRegistered_iff_registrable settings s interned clean
  have registrable' := @isRegistered_iff_registrable settings' s' interned' clean'
  obtain ⟨placed, first, places, passed, attempted⟩ := exists_attempted settings s interned clean
  obtain ⟨placed', first', places', passed', attempted'⟩ := exists_attempted settings' s' interned' clean'
  generalize registerAll Catalog.templates settings s = p at judged registrable attempted ⊢
  generalize registerAll Catalog.templates settings' s' = p' at judged' registrable' attempted' ⊢
  dsimp only
  -- the first pass
  rw [same.kept] at places'
  obtain rfl := places'.unique (distinct_kept Catalog.grounded) places
  have alike : ∀ t ∈ placed', Registry.hindrance? t first'.registry s' = Registry.hindrance? t first.registry s := by
    intro t ht
    have agree := judged.agree_on judged' supply.version (fun _ => True) (fun _ _ _ _ _ => trivial)
      (fun t _ _ => same.isDisabled t.family) (fun t declared _ => supply.provided t declared) t
      (mem_kept.mp ((places.mem t).mp ht)).1 trivial
    unfold Registry.hindrance? Registry.obstacle? at agree ⊢
    rw [← attempted.families, ← attempted'.families]
    exact agree.1
  obtain ⟨registered, order, more, failures, failures'⟩ := passed.agree passed' alike
  have names : p'.registered = p.registered := by rw [attempted'.registered, attempted.registered, registered]
  -- the second pass
  have types : ∀ e, p'.registry.isRegistered e = p.registry.isRegistered e := fun e => by
    rw [Bool.eq_iff_iff, registrable', registrable, names, same.registrable]
  have templates := fun name =>
    (judged'.template?_eq attempted'.calm.faithful name).trans
      (names ▸ (judged.template?_eq attempted.calm.faithful name).symm)
  refine ⟨names, attempted.agree attempted' order fun e => ?_, fun f => ?_⟩
  · rw [← attempted'.calm.faithful.listed, ← attempted.calm.faithful.listed, types]
  · rw [attempted'.failures, attempted.failures, failures', failures, names]
    simp only [List.mem_append, refused, List.mem_filterMap, mem_accepted, same.mem_requests,
      complaint?_congr types templates]

end Registration

/-! ### The whole registration -/

section register

variable {b b' : Bridge} {settings settings' : RegistrationSettings} {s s' : Store}

/-- **Registration depends on what the foreign side provides and on what the settings name**, and on nothing else, for any
two stores that operations lead to (`Store.Interned`) and where no fault is pending. -/
theorem Bridge.register_agree (uninitialized : b.phase = .uninitialized) (uninitialized' : b'.phase = .uninitialized)
    (interned : s.Interned) (interned' : s'.Interned) (clean : s.fault = none) (clean' : s'.fault = none)
    (supply : s.SameSupply s') (same : settings.SameMembers settings') :
    ∃ done done', (b.register settings s).1 = .ok done ∧ (b'.register settings' s').1 = .ok done' ∧
      done'.Agree done := by
  obtain ⟨registered, types, failures⟩ := Registration.registerAll_agree interned interned' clean clean' supply same
  rw [register_of_uninitialized settings s uninitialized, register_of_uninitialized settings' s' uninitialized']
  refine ⟨_, _, rfl, rfl, ?_, registered, same.skipped, types, failures, ?_⟩
  · exact congrArg (fun kept => (Placement.ofTemplates kept).order) same.kept
  · refine Outcome.SameMembers.fingerprint ⟨fun e => by rw [types], fun f => ?_, fun _ => Iff.rfl⟩
    simp only [Failure.families, List.mem_map, List.mem_filter, failures]

/-- Families are provided the other way round, one more is, a number is on the heap, and the settings repeat
themselves. The arrays have another handle then, and the outcome is the same. -/
theorem Bridge.register_agree_reversed :
    let names := Catalog.foreignNames ["Matrix"]
    let s : Store := .providing (.ofNumbers 4 11 0) names
    let s' : Store := ((Store.providing (.ofNumbers 4 11 0) ("Tuple" :: names.reverse)).allocate (.value (.int 7))).2
    let flags : TypeExpr := ⟨"Array", [.concrete "Bool"]⟩
    let words : TypeExpr := ⟨"Set", [.concrete "String"]⟩
    s.Interned ∧ s'.Interned ∧ s.fault = none ∧ s'.fault = none ∧ s.family? "pm::Array" ≠ s'.family? "pm::Array" ∧
      ∃ done done', ((Bridge.ofPolicy .full).register ⟨["Float", "Nope"], [flags, words], []⟩ s).1 = .ok done ∧
        ((Bridge.ofPolicy .full).register ⟨["Nope", "Float", "Nope"], [words, flags, words], []⟩ s').1 = .ok done' ∧
        done'.Agree done := by
  intro names s s' flags words
  have interned : s.Interned := Store.interned_providing _ _ _
  have interned' : s'.Interned := by
    have made : (Store.providing (.ofNumbers 4 11 0) ("Tuple" :: names.reverse)).Acts 0 s' 0 :=
      Store.acts_construct fun _ none => absurd none List.not_mem_nil
    exact made.keepsTypes.interned (Store.interned_providing _ _ _)
  have clean : s.fault = none := by decide +kernel
  have clean' : s'.fault = none := by decide +kernel
  have supply : s.SameSupply s' := ⟨by decide +kernel, by decide +kernel⟩
  have repeated : ∀ {α : Type} (x y z : α), z ∈ [x, y] ↔ z ∈ [y, x, y] := fun x y z => by
    rw [List.mem_cons (b := y), or_iff_right_of_imp]
    rintro rfl
    exact List.mem_cons_of_mem _ List.mem_cons_self
  exact ⟨interned, interned', clean, clean', by decide +kernel,
    register_agree rfl rfl interned interned' clean clean' supply ⟨repeated "Float" "Nope", repeated flags words⟩⟩

end register

end ForeignBridge
