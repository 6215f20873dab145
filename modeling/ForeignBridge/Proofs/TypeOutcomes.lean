import ForeignBridge.Proofs.FamilyOutcomes
import ForeignBridge.Proofs.TypeOrder

/-! # Outcomes of types

The registered types are the least set that holds the single types of the registered families and every requested
instance of a registered family over parameters of the set, if the owner of the request is registered (`Registrable`).

One pass is enough, since the requests are sorted by depth: when a request is tried, all that its parameters need has
been tried, and what is registered later is too deep to be one of them (`Attempted`). So a type whose parameters are
not all registered then lacks one in the end. -/

namespace ForeignBridge

/-! ### Requests -/

/-- A type is requested on behalf of an owner: by a template that lists it as an instance, or by the settings. Then the
owner is the extension that claims the type, or else the family that it is an instance of. -/
inductive Requested (settings : RegistrationSettings) : TypeExpr → String → Prop
  | listed {t : Template} {text : String} {e : TypeExpr} (declared : t ∈ Catalog.templates)
      (given : text ∈ t.instances) (read : TypeExpr.ofString text = .ok e) : Requested settings e t.family
  | claimed {t : Template} {e : TypeExpr} (configured : e ∈ settings.instances) (declared : t ∈ Catalog.templates)
      (claims : t.claims e = true) : Requested settings e t.family
  | unclaimed {e : TypeExpr} (configured : e ∈ settings.instances)
      (free : ∀ t ∈ Catalog.templates, t.claims e = false) : Requested settings e e.name

/-- What can be registered where the given families are: their single types, and the requested instances over such
types. An instance is one of the family of its name, which an extension is not. -/
inductive Registrable (settings : RegistrationSettings) (registered : List String) : TypeExpr → Prop
  | single {t : Template} (declared : t ∈ Catalog.templates) (scalar : t.isScalar = true)
      (there : t.family ∈ registered) : Registrable settings registered (.concrete t.family)
  | applied {t : Template} {e : TypeExpr} {owner : String} (requested : Requested settings e owner)
      (owned : owner ∈ registered) (declared : t ∈ Catalog.templates) (own : t.isExtension = false)
      (named : t.family = e.name) (there : e.name ∈ registered) (arity : t.arity = e.params.length)
      (parameters : ∀ p ∈ e.params, Registrable settings registered p) : Registrable settings registered e

/-- More instances in the settings make for more requests. -/
theorem Requested.mono {settings settings' : RegistrationSettings} {e : TypeExpr} {owner : String}
    (more : ∀ e ∈ settings.instances, e ∈ settings'.instances) (requested : Requested settings e owner) :
    Requested settings' e owner := by
  cases requested with
  | listed declared given read => exact .listed declared given read
  | claimed configured declared claims => exact .claimed (more _ configured) declared claims
  | unclaimed configured free => exact .unclaimed (more _ configured) free

namespace Registrable

variable {settings : RegistrationSettings} {registered : List String} {e : TypeExpr}

theorem mono {settings' : RegistrationSettings} (more : ∀ e ∈ settings.instances, e ∈ settings'.instances)
    (registrable : Registrable settings registered e) : Registrable settings' registered e := by
  induction registrable with
  | single declared scalar there => exact .single declared scalar there
  | applied requested owned declared own named there arity _ ih =>
    exact .applied (requested.mono more) owned declared own named there arity ih

/-- The name of a type that can be registered is that of a registered family. -/
theorem declared (registrable : Registrable settings registered e) :
    e.name ∈ registered ∧ ∃ t ∈ Catalog.templates, t.isExtension = false ∧ t.family = e.name := by
  cases registrable with
  | @single t declared scalar there =>
    have own : t.isExtension = false := by
      simp only [Template.isScalar, Bool.and_eq_true, Option.isNone_iff_eq_none] at scalar
      simp [Template.isExtension, scalar.2]
    exact ⟨there, t, declared, own, rfl⟩
  | applied requested owned declared own named there => exact ⟨there, _, declared, own, named⟩

theorem parameters (registrable : Registrable settings registered e) :
    ∀ p ∈ e.params, Registrable settings registered p := by
  cases registrable with
  | single => exact fun p hp => by cases hp
  | applied requested owned declared own named there arity parameters => exact parameters

end Registrable

namespace Catalog

/-- There is no more than one extension. -/
theorem extension_unique : ∀ t ∈ templates, ∀ u ∈ templates, t.isExtension = true → u.isExtension = true → t = u := by
  decide +kernel

/-- What an extension claims among the listed instances is listed by the extension. -/
theorem claims_listed : ∀ u ∈ templates, u.isExtension = true → ∀ t ∈ templates, ∀ text ∈ t.instances,
    ((TypeExpr.ofString text).toOption.any u.claims) = true → u = t := by
  decide +kernel

/-- Every extension requires more than its base. -/
theorem extension_requires : ∀ t ∈ templates, t.isExtension = true → ∃ f ∈ t.requires, t.base ≠ some f := by
  decide +kernel

theorem isExtension_of_claims {t : Template} {e : TypeExpr} (claims : t.claims e = true) : t.isExtension = true := by
  unfold Template.claims at claims
  unfold Template.isExtension
  cases base : t.base with
  | none => simp [base] at claims
  | some _ => rfl

/-- A single type is claimed by no extension. -/
theorem not_claims_concrete {t : Template} (listed : t ∈ templates) (name : String) :
    t.claims (.concrete name) = false := by
  cases base : t.base with
  | none => simp [Template.claims, base]
  | some b =>
    obtain ⟨f, required, apart⟩ := extension_requires t listed (by simp [Template.isExtension, base])
    have other : f ≠ b := fun same => apart (same ▸ base)
    rw [← Bool.not_eq_true]
    intro claims
    simp only [Template.claims, base, TypeExpr.concrete, TypeExpr.namesParams, Bool.and_eq_true,
      List.all_eq_true] at claims
    simpa [other] using claims.2 f required

end Catalog

namespace Registration

variable {settings : RegistrationSettings} {s : Store}

theorem owner?_of_claims {t : Template} {e : TypeExpr} (listed : t ∈ Catalog.templates) (claims : t.claims e = true) :
    owner? Catalog.templates e = some t := by
  have some : (Catalog.templates.find? (·.claims e)).isSome := List.find?_isSome.mpr ⟨t, listed, claims⟩
  obtain ⟨u, found⟩ := Option.isSome_iff_exists.mp some
  have listed' := List.mem_of_find?_eq_some found
  have claims' := List.find?_some found
  rw [owner?, found, Option.some_or, Catalog.extension_unique u listed' t listed
    (Catalog.isExtension_of_claims claims') (Catalog.isExtension_of_claims claims)]

theorem owner?_of_free {e : TypeExpr} (free : ∀ t ∈ Catalog.templates, t.claims e = false) :
    owner? Catalog.templates e = Catalog.own? e.name := by
  have none : Catalog.templates.find? (·.claims e) = none :=
    List.find?_eq_none.mpr fun t listed => by simp [free t listed]
  rw [owner?, none, Option.none_or]
  rfl

/-- A request that is taken up is one on behalf of its owner. -/
theorem requested_of_request {i : Pending} (request : .ok i ∈ requests Catalog.templates settings) :
    Requested settings i.type i.owner ∧ (i.configured = true → i.type ∈ settings.instances) := by
  rcases List.mem_append.mp request with listed | asked
  · obtain ⟨t, kept, listed⟩ := List.mem_flatMap.mp listed
    obtain ⟨text, given, same⟩ := List.mem_map.mp listed
    split at same
    · next e read =>
      obtain rfl := Except.ok.inj same
      exact ⟨.listed (mem_kept.mp kept).1 given read, fun configured => by cases configured⟩
    · cases same
  · obtain ⟨e, given, same⟩ := List.mem_map.mp asked
    unfold configured at same
    split at same
    · cases same
    · next t owner =>
      split at same
      · cases same
      · obtain rfl := Except.ok.inj same
        refine ⟨?_, fun _ => given⟩
        by_cases claimed : ∃ u ∈ Catalog.templates, u.claims e = true
        · obtain ⟨u, listed, claims⟩ := claimed
          rw [owner?_of_claims listed claims] at owner
          exact Option.some.inj owner ▸ .claimed given listed claims
        · have free : ∀ u ∈ Catalog.templates, u.claims e = false := fun u listed => by
            rw [← Bool.not_eq_true]
            exact fun claims => claimed ⟨u, listed, claims⟩
          rw [owner?_of_free free] at owner
          exact (Catalog.own?_eq_some owner).2.2 ▸ .unclaimed given free

/-- What is requested on behalf of a kept owner is taken up, if it is an instance of a family at all. -/
theorem request_of_requested {e : TypeExpr} {owner : String} (requested : Requested settings e owner)
    (kept : settings.isDisabled owner = false) {t : Template} (own : Catalog.own? e.name = some t) :
    ∃ i : Pending, .ok i ∈ requests Catalog.templates settings ∧ i.type = e ∧ i.owner = owner := by
  have asked : ∀ {u : Template}, e ∈ settings.instances → owner? Catalog.templates e = some u → u.family = owner →
      .ok ⟨e, owner, true⟩ ∈ requests Catalog.templates settings := by
    rintro u given found rfl
    refine List.mem_append_right _ (List.mem_map.mpr ⟨e, given, ?_⟩)
    unfold configured
    simp only [found, kept, Bool.false_eq_true, if_false]
  cases requested with
  | @listed t text _ declared given read =>
    refine ⟨⟨e, t.family, false⟩, ?_, rfl, rfl⟩
    refine List.mem_append_left _ (List.mem_flatMap.mpr ⟨t, mem_kept.mpr ⟨declared, kept⟩, ?_⟩)
    exact List.mem_map.mpr ⟨text, given, by simp only [read]⟩
  | claimed configured declared claims => exact ⟨_, asked configured (owner?_of_claims declared claims) rfl, rfl, rfl⟩
  | unclaimed configured free =>
    exact ⟨_, asked configured ((owner?_of_free free).trans own) (Catalog.own?_eq_some own).2.2, rfl, rfl⟩

/-- A request for a type that an extension claims is one on behalf of the extension. -/
theorem owner_of_claims {i : Pending} (request : .ok i ∈ requests Catalog.templates settings) {u : Template}
    (listed : u ∈ Catalog.templates) (claims : u.claims i.type = true) : i.owner = u.family := by
  have requested := (requested_of_request request).1
  obtain ⟨e, owner, _⟩ := i
  dsimp only at requested claims ⊢
  cases requested with
  | listed declared given read =>
    rw [Catalog.claims_listed u listed (Catalog.isExtension_of_claims claims) _ declared _ given
      (by simp [read, Except.toOption, claims])]
  | claimed configured declared claims' =>
    rw [Catalog.extension_unique _ declared u listed (Catalog.isExtension_of_claims claims')
      (Catalog.isExtension_of_claims claims)]
  | unclaimed configured free => simp [free u listed] at claims

/-- A configured type is taken up, or it is refused with a failure about it. -/
theorem configured_cases {e : TypeExpr} (given : e ∈ settings.instances) :
    (∃ i : Pending, .ok i ∈ requests Catalog.templates settings ∧ i.type = e ∧ i.configured = true) ∨
    ∃ f ∈ refused (requests Catalog.templates settings), f.level = .type ∧ f.subject = e.render := by
  have asked : configured Catalog.templates settings e ∈ requests Catalog.templates settings :=
    List.mem_append_right _ (List.mem_map_of_mem given)
  cases result : configured Catalog.templates settings e with
  | ok i =>
    refine .inl ⟨i, result ▸ asked, ?_⟩
    unfold configured at result
    split at result
    · cases result
    · split at result
      · cases result
      · exact Except.ok.inj result ▸ ⟨rfl, rfl⟩
  | error f =>
    refine .inr ⟨f, List.mem_filterMap.mpr ⟨_, asked, by rw [result]⟩, ?_⟩
    unfold configured at result
    split at result
    · exact Except.error.inj result ▸ ⟨rfl, rfl⟩
    · split at result
      · exact Except.error.inj result ▸ ⟨rfl, rfl⟩
      · cases result

/-- No request is refused for want of a parameter. -/
theorem error_refused {f : Failure} (there : f ∈ refused (requests Catalog.templates settings)) {owner : String}
    {p : TypeExpr} : f.error ≠ .unregisteredParameter owner p := by
  obtain ⟨_, ⟨_, error⟩ | ⟨_, error⟩ | ⟨_, error⟩⟩ := of_mem_refused there <;> simp [error]

/-! ### One request -/

/-- The type is an instance of a family in the registry, and its parameters are registered. -/
def Fits (r : Registry) (e : TypeExpr) : Prop :=
  (∃ f, r.families.get? e.name = some f ∧ e.params.length = f.template.arity) ∧
    ∀ p ∈ e.params, r.isRegistered p = true

/-- What stands in the way of a type that is not registered; of its parameters the first that is missing. -/
def objection? (r : Registry) (e : TypeExpr) : Option RegistrationError :=
  if r.isRegistered e then none
  else
    match r.families.get? e.name with
    | none => some (.unknownFamily e.name)
    | some f =>
      if e.params.length = f.template.arity then
        (e.params.find? (!r.isRegistered ·)).map (.unregisteredParameter e.render)
      else some (.arityMismatch e.name f.template.arity e.params.length)

/-- The failure that a request comes to where these families and the types of this registry are registered. -/
def complaint? (registered : List String) (r : Registry) (i : Pending) : Option Failure :=
  if i.owner ∈ registered then (objection? r i.type).map (⟨.type, i.type.render, ·⟩)
  else if i.configured then some ⟨.type, i.type.render, .unavailable i.owner .unregistered⟩
  else none

theorem objection?_eq_none {r : Registry} {e : TypeExpr} :
    objection? r e = none ↔ r.isRegistered e = true ∨ Fits r e := by
  unfold objection? Fits
  cases there : r.isRegistered e with
  | true => simp
  | false =>
    cases found : r.families.get? e.name with
    | none => simp
    | some f => by_cases arity : e.params.length = f.template.arity <;> simp [arity]

/-- What stands in the way depends on the registered types and the templates of the families. -/
theorem objection?_congr {r r' : Registry} (registered : ∀ e, r'.isRegistered e = r.isRegistered e)
    (templates : ∀ name,
      (r'.families.get? name).map RegisteredFamily.template = (r.families.get? name).map RegisteredFamily.template)
    (e : TypeExpr) : objection? r' e = objection? r e := by
  have template := templates e.name
  unfold objection?
  simp only [registered]
  cases found : r.families.get? e.name with
  | none =>
    rw [found, Option.map_none, Option.map_eq_none_iff] at template
    rw [template]
  | some f =>
    rw [found, Option.map_some] at template
    obtain ⟨f', found', same⟩ := Option.map_eq_some_iff.mp template
    simp only [found', same]

theorem missing_of_objection {r : Registry} {e q : TypeExpr} {owner : String}
    (objection : objection? r e = some (.unregisteredParameter owner q)) : r.isRegistered q = false := by
  unfold objection? at objection
  split at objection
  · cases objection
  · split at objection
    · cases objection
    · split at objection
      · obtain ⟨p, first, same⟩ := Option.map_eq_some_iff.mp objection
        obtain ⟨-, rfl⟩ := RegistrationError.unregisteredParameter.inj same
        simpa using List.find?_some first
      · cases objection

/-- A complaint is about the type of its request. -/
theorem about_of_complaint {registered : List String} {r : Registry} {i : Pending} {f : Failure}
    (complaint : complaint? registered r i = some f) : f.level = .type ∧ f.subject = i.type.render := by
  unfold complaint? at complaint
  split at complaint
  · obtain ⟨e, _, rfl⟩ := Option.map_eq_some_iff.mp complaint
    exact ⟨rfl, rfl⟩
  · split at complaint
    · exact Option.some.inj complaint ▸ ⟨rfl, rfl⟩
    · cases complaint

/-- What trying a request comes to. -/
structure Attempts (i : Pending) (p p' : Progress) : Prop where
  registered : p'.registered = p.registered
  families : p'.registry.families = p.registry.families
  types : ∀ e, p'.registry.isRegistered e = true ↔ p.registry.isRegistered e = true ∨
    (e = i.type ∧ i.owner ∈ p.registered ∧ Fits p.registry i.type)
  order : p'.registry.order = p.registry.order ∨
    (p.registry.isRegistered i.type = false ∧ p'.registry.order = p.registry.order ++ [i.type])
  failures : p'.failures = p.failures ++ (complaint? p'.registered p'.registry i).toList

section attempts

variable {i : Pending} {p : Progress}

/-- Where nothing is registered anew, there is a complaint or none. -/
theorem attempts_of_settled
    (settled : i.owner ∈ p.registered → Fits p.registry i.type → p.registry.isRegistered i.type = true) :
    Attempts i p { p with failures := p.failures ++ (complaint? p.registered p.registry i).toList } where
  registered := rfl
  families := rfl
  types _ := (or_iff_left_of_imp fun both => both.1 ▸ settled both.2.1 both.2.2).symm
  order := .inl rfl
  failures := rfl

/-- A type that something stands in the way of is refused for that reason. -/
theorem attempts_of_objection (owned : i.owner ∈ p.registered) {e : RegistrationError}
    (objection : objection? p.registry i.type = some e) :
    Attempts i p { p with failures := p.failures ++ [⟨.type, i.type.render, e⟩] } := by
  have complaint : complaint? p.registered p.registry i = some ⟨.type, i.type.render, e⟩ := by
    rw [complaint?, if_pos owned, objection, Option.map_some]
  have attempts := attempts_of_settled (i := i) fun _ fit => by
    rw [objection?_eq_none.mpr (.inr fit)] at objection
    cases objection
  rwa [complaint] at attempts

/-- **Trying one request.** -/
theorem attempts_tryInstance (calm : Calm s p) (i : Pending) : Attempts i p (tryInstance p i) := by
  unfold tryInstance
  by_cases owned : i.owner ∈ p.registered
  · have held : (!p.registered.contains i.owner) = false := by simpa using owned
    rw [held, if_neg (by simp)]
    have ways := calm.faithful.instantiates i.type
    generalize p.registry.instantiate i.type p.store = result at ways ⊢
    cases ways with
    | @known h found =>
      have there := (calm.faithful.lookup_eq_some.mp found).1
      have quiet : complaint? p.registered p.registry i = none := by simp [complaint?, owned, objection?, there]
      simpa [quiet] using attempts_of_settled (i := i) fun _ _ => there
    | unknownFamily new absent =>
      exact attempts_of_objection owned (by simp [objection?, new, absent])
    | arityMismatch new there apart =>
      exact attempts_of_objection owned (by simp [objection?, new, there, apart])
    | unregisteredParameter new there arity first =>
      exact attempts_of_objection owned (by simp [objection?, new, there, arity, first])
    | faulted new pending => exact absurd calm.clean pending
    | @made f h s' new there arity registered =>
      have known : (p.registry.withType i.type s'.nextCell h).isRegistered i.type = true :=
        (Registry.isRegistered_withType ..).mpr (.inl rfl)
      refine ⟨rfl, rfl, fun e => ?_, .inr ⟨new, Registry.order_withType ..⟩, ?_⟩
      · dsimp only
        rw [Registry.isRegistered_withType, or_comm]
        exact or_congr_right (and_iff_left ⟨owned, ⟨f, there, arity⟩, registered⟩).symm
      · simp [complaint?, owned, objection?, known]
  · have absent : (!p.registered.contains i.owner) = true := by simpa using owned
    have attempts := attempts_of_settled (i := i) fun held => absurd held owned
    rw [complaint?, if_neg owned] at attempts
    rw [absent, if_pos rfl]
    split
    · next asked => simpa [asked] using attempts
    · next unasked => simpa [unasked] using attempts

end attempts

/-! ### All requests -/

/-- What was done once the requests of a list were tried, in terms of what is registered then. -/
structure Attempted (first : Progress) (tried : List Pending) (p : Progress) : Prop where
  registered : p.registered = first.registered
  families : p.registry.families = first.registry.families
  calm : Calm first.store p
  types : ∀ e, p.registry.isRegistered e = true ↔ first.registry.isRegistered e = true ∨
    ∃ i ∈ tried, i.type = e ∧ i.owner ∈ first.registered ∧ Fits p.registry e
  /-- What is registered anew is sorted. -/
  order : ∃ new, p.registry.order = first.registry.order ++ new ∧ new.Pairwise TypeExpr.Earlier ∧
    ∀ e ∈ new, e ∉ first.registry.order ∧ ∃ i ∈ tried, i.type = e
  failures : p.failures = first.failures ++ tried.filterMap (complaint? p.registered p.registry)

theorem attempted_nil {p : Progress} (calm : Calm p.store p) : Attempted p [] p where
  registered := rfl
  families := rfl
  calm := calm
  types e := by simp
  order := ⟨[], by simp, List.Pairwise.nil, by simp⟩
  failures := by simp

/-- What a request registers is too deep to be a parameter of a request that is no deeper, so whether that one fits is
settled before. -/
theorem Attempts.settled {i j : Pending} {p p' : Progress} (attempts : Attempts i p p')
    (deeper : j.type.depth ≤ i.type.depth) :
    (∀ q ∈ j.type.params, p'.registry.isRegistered q = p.registry.isRegistered q) ∧
      (Fits p'.registry j.type ↔ Fits p.registry j.type) := by
  have parameter : ∀ q ∈ j.type.params, p'.registry.isRegistered q = p.registry.isRegistered q := by
    intro q hq
    have shallow := TypeExpr.depth_lt_of_mem hq
    rw [Bool.eq_iff_iff, attempts.types]
    refine or_iff_left fun both => ?_
    rw [both.1] at shallow
    omega
  refine ⟨parameter, ?_⟩
  unfold Fits
  rw [attempts.families]
  exact and_congr_right fun _ => forall₂_congr fun q hq => by rw [parameter q hq]

section append

variable {first p p' : Progress} {tried : List Pending} {i : Pending}

/-- A complaint about a request that was tried before goes on to hold: what is registered anew did not fit then. -/
theorem Attempted.complaint?_eq (attempted : Attempted first tried p) (attempts : Attempts i p p') {j : Pending}
    (hj : j ∈ tried) (deeper : j.type.depth ≤ i.type.depth) :
    complaint? p'.registered p'.registry j = complaint? p.registered p.registry j := by
  unfold complaint?
  rw [attempts.registered]
  by_cases owned : j.owner ∈ p.registered
  · have same : p'.registry.isRegistered j.type = p.registry.isRegistered j.type := by
      rw [Bool.eq_iff_iff, attempts.types]
      refine or_iff_left_of_imp fun ⟨here, _, fit⟩ => (attempted.types _).mpr (.inr ?_)
      exact ⟨j, hj, rfl, attempted.registered ▸ owned, here ▸ fit⟩
    have missing : j.type.params.find? (!p'.registry.isRegistered ·) =
        j.type.params.find? (!p.registry.isRegistered ·) :=
      List.find?_congr fun q hq => by rw [(attempts.settled deeper).1 q hq]
    rw [if_pos owned, if_pos owned, objection?, objection?, same, attempts.families, missing]
  · rw [if_neg owned, if_neg owned]

/-- One more request is tried, which comes after those before. -/
theorem Attempted.append (attempted : Attempted first tried p) (attempts : Attempts i p p') (calm : Calm first.store p')
    (sorted : ∀ j ∈ tried, comesBefore j i = true) : Attempted first (tried ++ [i]) p' := by
  have deeper : ∀ j ∈ tried, j.type.depth ≤ i.type.depth := fun j hj => depth_le_of_comesBefore (sorted j hj)
  have deepest : ∀ j ∈ tried ++ [i], j.type.depth ≤ i.type.depth := by
    simpa [or_imp, forall_and] using deeper
  have fits := fun j hj => (attempts.settled (deepest j hj)).2
  exact
    { registered := attempts.registered.trans attempted.registered
      families := attempts.families.trans attempted.families
      calm := calm
      types := fun e => by
        rw [attempts.types, attempted.types, or_assoc, attempted.registered]
        refine or_congr_right ?_
        constructor
        · rintro (⟨j, hj, rfl, owned, fit⟩ | ⟨rfl, owned, fit⟩)
          · exact ⟨j, List.mem_append_left _ hj, rfl, owned, (fits j (List.mem_append_left _ hj)).mpr fit⟩
          · exact ⟨i, by simp, rfl, owned, (fits i (by simp)).mpr fit⟩
        · rintro ⟨j, hj, rfl, owned, fit⟩
          have fit' := (fits j hj).mp fit
          rcases List.mem_append.mp hj with old | here
          · exact .inl ⟨j, old, rfl, owned, fit'⟩
          · obtain rfl := List.mem_singleton.mp here
            exact .inr ⟨rfl, owned, fit'⟩
      order := by
        obtain ⟨new, order, ascends, origin⟩ := attempted.order
        have older : ∀ e ∈ new, e ∉ first.registry.order ∧ ∃ j ∈ tried ++ [i], j.type = e := fun e he =>
          ⟨(origin e he).1, (origin e he).2.imp fun j hj => ⟨List.mem_append_left _ hj.1, hj.2⟩⟩
        rcases attempts.order with same | ⟨fresh, further⟩
        · exact ⟨new, same.trans order, ascends, older⟩
        · have unlisted : i.type ∉ first.registry.order ++ new := by
            rw [← order, ← attempted.calm.faithful.listed, fresh]
            exact Bool.false_ne_true
          rw [List.mem_append, not_or] at unlisted
          refine ⟨new ++ [i.type], by rw [further, order, List.append_assoc], ?_, ?_⟩
          · refine List.pairwise_append.mpr ⟨ascends, List.pairwise_singleton _ _, fun e he e' here => ?_⟩
            obtain rfl := List.mem_singleton.mp here
            obtain ⟨j, hj, rfl⟩ := (origin e he).2
            exact earlier_of_comesBefore (sorted j hj) fun same => unlisted.2 (same ▸ he)
          · intro e he
            rcases List.mem_append.mp he with old | here
            · exact older e old
            · obtain rfl := List.mem_singleton.mp here
              exact ⟨unlisted.1, i, by simp, rfl⟩
      failures := by
        have before : tried.filterMap (complaint? p'.registered p'.registry) =
            tried.filterMap (complaint? p.registered p.registry) :=
          List.filterMap_congr fun j hj => attempted.complaint?_eq attempts hj (deeper j hj)
        rw [attempts.failures, attempted.failures, List.filterMap_append, before, List.append_assoc]
        cases found : complaint? p'.registered p'.registry i <;> simp [found] }

end append

/-- The pass over sorted requests. -/
theorem attempted_foldl {first : Progress} : ∀ (rest : List Pending) {tried : List Pending} {p : Progress},
    Attempted first tried p → ((tried ++ rest).Pairwise fun i j => comesBefore i j = true) →
    Attempted first (tried ++ rest) (rest.foldl tryInstance p)
  | [], tried, p, attempted, _ => by simpa using attempted
  | i :: rest, tried, p, attempted, sorted => by
      have before : ∀ j ∈ tried, comesBefore j i = true := fun j hj =>
        (List.pairwise_append.mp sorted).2.2 j hj i List.mem_cons_self
      have further := attempted.append (attempts_tryInstance attempted.calm i) (attempted.calm.tryInstance i) before
      rw [List.append_cons] at sorted ⊢
      exact attempted_foldl rest further sorted

/-! ### Both passes -/

variable (settings s)

/-- The passes over the catalog, where no fault is pending at the start. -/
theorem exists_attempted (interned : s.Interned) (clean : s.fault = none) : ∃ placed first,
    Placed (kept Catalog.templates settings) placed ∧
    Passed s (refused (requests Catalog.templates settings)) placed first ∧
    Attempted first (accepted (requests Catalog.templates settings)) (registerAll Catalog.templates settings s) := by
  obtain ⟨placed, places, passed⟩ := exists_passed_kept settings s (refused (requests Catalog.templates settings))
  have noCycle : cycleFailures (Placement.ofTemplates (kept Catalog.templates settings)) = [] := by
    rw [cycleFailures, cyclic_kept Catalog.grounded settings, List.map_nil]
  have inside : placed ⊆ Catalog.templates := fun t ht => (mem_kept.mp ((places.mem t).mp ht)).1
  refine ⟨placed, _, places, passed, ?_⟩
  have calm := passed.calm inside interned clean
  have attempted := attempted_foldl (accepted (requests Catalog.templates settings))
    (attempted_nil ⟨calm.faithful, calm.clean, rfl⟩) (by simpa using pairwise_accepted _)
  unfold registerAll
  dsimp only
  rw [noCycle, List.append_nil]
  exact attempted

variable {settings s}

/-- The single types are those of the registered families. -/
theorem Passed.single_iff {first : List Failure} {placed : List Template} {p : Progress}
    (passed : Passed s first placed p) (places : Placed (kept Catalog.templates settings) placed) (e : TypeExpr) :
    p.registry.isRegistered e = true ↔
      ∃ t ∈ Catalog.templates, t.isScalar = true ∧ t.family ∈ p.registered ∧ e = .concrete t.family := by
  have listed : ∀ t ∈ placed, t ∈ Catalog.templates := fun t ht => (mem_kept.mp ((places.mem t).mp ht)).1
  rw [passed.types, passed.registered]
  simp only [List.mem_map, List.mem_filter, Option.isNone_iff_eq_none]
  constructor
  · rintro ⟨t, ht, scalar, free, rfl⟩
    exact ⟨t, listed t ht, scalar, ⟨t, ⟨ht, free⟩, rfl⟩, rfl⟩
  · rintro ⟨t, declared, scalar, ⟨u, ⟨hu, free⟩, same⟩, rfl⟩
    obtain rfl := places.eq_of_family hu declared same
    exact ⟨u, hu, scalar, free, rfl⟩

/-- The templates in the registry are those of the registered families, except for extensions. -/
theorem Judged.template?_eq {p : Progress} (judged : Judged settings s p) (faithful : p.registry.Faithful p.store)
    (name : String) : (p.registry.families.get? name).map RegisteredFamily.template =
      if name ∈ p.registered then Catalog.own? name else none := by
  cases own : Catalog.own? name with
  | none =>
    rw [ite_self, Option.map_eq_none_iff, Option.eq_none_iff_forall_ne_some]
    intro f found
    rw [(faithful.families found).1] at own
    cases own
  | some t =>
    obtain ⟨declared, notExtension, rfl⟩ := Catalog.own?_eq_some own
    have has := judged.has t declared notExtension
    cases found : p.registry.families.get? t.family with
    | none =>
      have absent : t.family ∉ p.registered := by simpa [Keyed.has, found] using has
      rw [if_neg absent, Option.map_none]
    | some f =>
      have there : t.family ∈ p.registered := by simpa [Keyed.has, found] using has
      rw [if_pos there, Option.map_some, ← own, (faithful.families found).1]

/-- When a type fits, in terms of the registered families. -/
theorem Judged.fits_iff {p : Progress} (judged : Judged settings s p) (faithful : p.registry.Faithful p.store)
    {e : TypeExpr} : Fits p.registry e ↔
      (∃ t ∈ Catalog.templates, t.isExtension = false ∧ t.family = e.name ∧ e.name ∈ p.registered ∧
        t.arity = e.params.length) ∧ ∀ q ∈ e.params, p.registry.isRegistered q = true := by
  have template := judged.template?_eq faithful e.name
  refine and_congr_left fun _ => ?_
  constructor
  · rintro ⟨f, found, arity⟩
    rw [found, Option.map_some] at template
    split at template
    · next there =>
      obtain ⟨declared, own, named⟩ := Catalog.own?_eq_some template.symm
      exact ⟨f.template, declared, own, named, there, arity.symm⟩
    · cases template
  · rintro ⟨t, declared, own, named, there, arity⟩
    rw [if_pos there, ← named, Catalog.own?_of_mem declared own, named] at template
    obtain ⟨f, found, rfl⟩ := Option.map_eq_some_iff.mp template
    exact ⟨f, found, arity.symm⟩

/-- **The registered types are those that can be registered.** -/
theorem isRegistered_iff_registrable (interned : s.Interned) (clean : s.fault = none) (e : TypeExpr) :
    (registerAll Catalog.templates settings s).registry.isRegistered e = true ↔
      Registrable settings (registerAll Catalog.templates settings s).registered e := by
  have judged := judged_registerAll settings s
  obtain ⟨placed, first, places, passed, attempted⟩ := exists_attempted settings s interned clean
  have single := passed.single_iff places
  generalize registerAll Catalog.templates settings s = p at judged attempted ⊢
  rw [← attempted.registered] at single
  have fits := fun e => judged.fits_iff attempted.calm.faithful (e := e)
  have enabled : ∀ owner ∈ p.registered, settings.isDisabled owner = false := by
    intro owner there
    rw [attempted.registered, passed.registered] at there
    obtain ⟨t, ht, rfl⟩ := List.mem_map.mp there
    exact (mem_kept.mp ((places.mem t).mp (List.mem_filter.mp ht).1)).2
  constructor
  · -- parameters are less deep
    induction depth : e.depth using Nat.strong_induction_on generalizing e with
    | _ n ih =>
      subst depth
      intro there
      rcases (attempted.types e).mp there with old | ⟨i, hi, rfl, owned, fit⟩
      · obtain ⟨t, declared, scalar, family, rfl⟩ := (single e).mp old
        exact .single declared scalar family
      · obtain ⟨⟨t, declared, own, named, family, arity⟩, parameters⟩ := (fits i.type).mp fit
        exact .applied (requested_of_request (mem_accepted.mp hi)).1 (attempted.registered ▸ owned) declared own named
          family arity fun q hq => ih q.depth (TypeExpr.depth_lt_of_mem hq) q rfl (parameters q hq)
  · intro registrable
    induction registrable with
    | single declared scalar there =>
      exact (attempted.types _).mpr (.inl ((single _).mpr ⟨_, declared, scalar, there, rfl⟩))
    | @applied t e owner requested owned declared own named there arity parameters ih =>
      have known := Catalog.own?_of_mem declared own
      rw [named] at known
      obtain ⟨i, request, rfl, rfl⟩ := request_of_requested requested (enabled _ owned) known
      refine (attempted.types _).mpr (.inr ⟨i, mem_accepted.mpr request, rfl, attempted.registered ▸ owned, ?_⟩)
      exact (fits _).mpr ⟨⟨t, declared, own, named, there, arity⟩, ih⟩

/-- A failure for want of a parameter names one that is not registered in the end. -/
theorem missing_registerAll (interned : s.Interned) (clean : s.fault = none) {f : Failure}
    (there : f ∈ (registerAll Catalog.templates settings s).failures) {owner : String} {q : TypeExpr}
    (cause : f.error = .unregisteredParameter owner q) :
    (registerAll Catalog.templates settings s).registry.isRegistered q = false := by
  obtain ⟨placed, first, places, passed, attempted⟩ := exists_attempted settings s interned clean
  rw [attempted.failures, passed.failures, List.append_assoc] at there
  rcases List.mem_append.mp there with request | there
  · exact absurd cause (error_refused request)
  · rcases List.mem_append.mp there with family | complaint
    · obtain ⟨t, _, same⟩ := List.mem_filterMap.mp family
      obtain ⟨_, _, rfl⟩ := Option.map_eq_some_iff.mp same
      cases cause
    · obtain ⟨i, _, complaint⟩ := List.mem_filterMap.mp complaint
      unfold complaint? at complaint
      split at complaint
      · obtain ⟨e, objection, rfl⟩ := Option.map_eq_some_iff.mp complaint
        exact missing_of_objection (objection.trans (congrArg some cause))
      · split at complaint
        · exact absurd (Option.some.inj complaint ▸ cause) (by simp)
        · cases complaint

/-- A configured type is registered, or there is a failure about it. -/
theorem configured_registerAll (interned : s.Interned) (clean : s.fault = none) {e : TypeExpr}
    (given : e ∈ settings.instances) :
    (registerAll Catalog.templates settings s).registry.isRegistered e = true ∨
      ∃ f ∈ (registerAll Catalog.templates settings s).failures, f.level = .type ∧ f.subject = e.render := by
  obtain ⟨placed, first, places, passed, attempted⟩ := exists_attempted settings s interned clean
  rcases configured_cases given with ⟨i, request, rfl, configured⟩ | ⟨f, there, about⟩
  · have tried := mem_accepted.mpr request
    cases complaint : complaint? (registerAll Catalog.templates settings s).registered
        (registerAll Catalog.templates settings s).registry i with
    | some f =>
      refine .inr ⟨f, ?_, about_of_complaint complaint⟩
      rw [attempted.failures]
      exact List.mem_append_right _ (List.mem_filterMap.mpr ⟨i, tried, complaint⟩)
    | none =>
      left
      by_cases owned : i.owner ∈ (registerAll Catalog.templates settings s).registered
      · rw [complaint?, if_pos owned, Option.map_eq_none_iff] at complaint
        rcases objection?_eq_none.mp complaint with there | fit
        · exact there
        · exact (attempted.types _).mpr (.inr ⟨i, tried, rfl, attempted.registered ▸ owned, fit⟩)
      · rw [complaint?, if_neg owned, if_pos configured] at complaint
        cases complaint
  · refine .inr ⟨f, ?_, about⟩
    rw [attempted.failures, passed.failures, List.append_assoc]
    exact List.mem_append_left _ there

/-- A registered type that an extension claims has the extension registered. -/
theorem claimed_registerAll (interned : s.Interned) (clean : s.fault = none) {u : Template}
    (declared : u ∈ Catalog.templates) {e : TypeExpr} (claims : u.claims e = true)
    (there : (registerAll Catalog.templates settings s).registry.isRegistered e = true) :
    u.family ∈ (registerAll Catalog.templates settings s).registered := by
  obtain ⟨placed, first, places, passed, attempted⟩ := exists_attempted settings s interned clean
  rcases (attempted.types e).mp there with old | ⟨i, hi, rfl, owned, _⟩
  · obtain ⟨t, _, _, _, rfl⟩ := (passed.single_iff places e).mp old
    simp [Catalog.not_claims_concrete declared] at claims
  · rw [← owner_of_claims (mem_accepted.mp hi) declared claims, attempted.registered]
    exact owned

end Registration

/-! ### The whole registration -/

section register

variable {b : Bridge} (settings : RegistrationSettings) {s : Store}

/-- **Registration registers just what can be registered**, and says what it could not, in every store that operations
lead to (`Store.Interned`) and where no fault is pending. -/
theorem Bridge.register_types (uninitialized : b.phase = .uninitialized) (interned : s.Interned)
    (clean : s.fault = none) :
    ∃ done, (b.register settings s).1 = .ok done ∧ (b.register settings s).2.halted = s.halted ∧
      (∀ e, done.registry.isRegistered e = true ↔ Registrable settings done.report.registered e) ∧
      (∀ e ∈ settings.instances, done.registry.isRegistered e = true ∨
        ∃ f ∈ done.report.failures, f.level = .type ∧ f.subject = e.render) ∧
      (∀ f ∈ done.report.failures, ∀ owner p, f.error = .unregisteredParameter owner p →
        done.registry.isRegistered p = false) ∧
      (∀ u ∈ Catalog.templates, ∀ e, u.claims e = true → done.registry.isRegistered e = true →
        u.family ∈ done.report.registered) := by
  rw [register_of_uninitialized settings s uninitialized]
  exact ⟨_, rfl, (Registration.calm_registerAll settings interned clean).halted,
    Registration.isRegistered_iff_registrable interned clean,
    fun e given => Registration.configured_registerAll interned clean given,
    fun f there owner p cause => Registration.missing_registerAll interned clean there cause,
    fun u declared e claims there => Registration.claimed_registerAll interned clean declared claims there⟩

/-- An array of something that no family is called is not registered, and there is a failure about it. -/
theorem Bridge.register_types_unknownElement :
    let e : TypeExpr := ⟨"Array", [.concrete "Nope"]⟩
    let s : Store := .providing (.ofNumbers 4 11 0) (Catalog.foreignNames [])
    (Bridge.ofPolicy .full).phase = .uninitialized ∧ s.Interned ∧ s.fault = none ∧
      ∃ done, ((Bridge.ofPolicy .full).register ⟨[], [e], []⟩ s).1 = .ok done ∧
        done.registry.isRegistered e = false ∧
        ∃ f ∈ done.report.failures, f.level = .type ∧ f.subject = "Array<Nope>" := by
  intro e s
  have interned : s.Interned := Store.interned_providing _ _ _
  have clean : s.fault = none := by decide +kernel
  obtain ⟨done, ok, _, registered, configured, _⟩ :=
    register_types (b := .ofPolicy .full) ⟨[], [e], []⟩ (s := s) rfl interned clean
  have unregistered : done.registry.isRegistered e = false := by
    rw [← Bool.not_eq_true, registered]
    intro registrable
    obtain ⟨_, t, declared, _, named⟩ := (registrable.parameters (.concrete "Nope") List.mem_cons_self).declared
    have unknown : ∀ t ∈ Catalog.templates, t.family ≠ "Nope" := by decide +kernel
    exact unknown t declared named
  refine ⟨rfl, interned, clean, done, ok, unregistered, ?_⟩
  obtain ⟨f, there, level, subject⟩ := (configured e List.mem_cons_self).resolve_left (by simp [unregistered])
  exact ⟨f, there, level, subject.trans (by decide +kernel)⟩

end register

end ForeignBridge
