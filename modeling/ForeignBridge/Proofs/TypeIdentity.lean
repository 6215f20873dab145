import ForeignBridge.Proofs.Activity
import ForeignBridge.Proofs.RegistryRuns

/-! # The identity of foreign types

What a family and parameters give is settled by the table of applied types (`IsApplied`): the family itself without
parameters, and else the object that stands there for them. No activity changes the entries of the table
(`IsApplied.later`), and while the tables agree with the slots, different families or parameters give different objects
(`IsApplied.eq_iff`). The tables agree with the slots from the start on, and a program is activity between any two of
its moments. So two applications in a run have the same result exactly if they have the same family and parameters, and
what they result in stays live (`types_identified`). -/

namespace ForeignBridge

namespace Store

variable {s t : Store} {o p : Multiset CellId} {head head' h h' : Handle} {params params' : List Handle}

/-! ### What a family and parameters give -/

/-- The handle is what the family gives for the parameters. -/
def IsApplied (s : Store) (head : Handle) (params : List Handle) (h : Handle) : Prop :=
  s.isFamily head = true ∧ if params = [] then h = head else s.applied? head params = some h

/-- What a family gives for parameters stays the same. -/
theorem IsApplied.later (applied : s.IsApplied head params h) (interned : s.Interned) (keeps : s.KeepsTypes t) :
    t.IsApplied head params h := by
  refine ⟨keeps.isFamily interned applied.1, ?_⟩
  have given := applied.2
  split at given
  · next none => rwa [if_pos none]
  · next some =>
    rw [if_neg some]
    exact keeps.applied given

/-- What a family gives for parameters is a family or an applied type. -/
theorem IsApplied.object (applied : s.IsApplied head params h) (interned : s.Interned) :
    (params = [] ∧ ∃ name, s.object? h = some (.family name)) ∨
      (params ≠ [] ∧ s.object? h = some (.type head params)) := by
  obtain ⟨family, given⟩ := applied
  split at given
  · next none => exact .inl ⟨none, given ▸ isFamily_iff.mp family⟩
  · next some => exact .inr ⟨some, interned.applied.mp given⟩

theorem IsApplied.isLive (applied : s.IsApplied head params h) (interned : s.Interned) : s.isLive h = true := by
  rcases applied.object interned with ⟨_, _, object⟩ | ⟨_, object⟩ <;> exact isLive_of_object? object

/-- **The same family and parameters give the same handle, and different ones give different handles.** -/
theorem IsApplied.eq_iff (interned : s.Interned) (applied : s.IsApplied head params h)
    (applied' : s.IsApplied head' params' h') : h = h' ↔ head = head' ∧ params = params' := by
  constructor
  · rintro rfl
    rcases applied.object interned with ⟨none, name, object⟩ | ⟨some, object⟩ <;>
      rcases applied'.object interned with ⟨none', name', object'⟩ | ⟨some', object'⟩
    · have given := applied.2
      have given' := applied'.2
      rw [if_pos none] at given
      rw [if_pos none'] at given'
      exact ⟨given.symm.trans given', none.trans none'.symm⟩
    · exact absurd (object.symm.trans object') (by simp)
    · exact absurd (object.symm.trans object') (by simp)
    · exact Object.type.inj (Option.some.inj (object.symm.trans object'))
  · rintro ⟨rfl, rfl⟩
    have given := applied.2
    have given' := applied'.2
    split at given
    · next none =>
      rw [if_pos none] at given'
      rw [given, given']
    · next some =>
      rw [if_neg some] at given'
      exact Option.some.inj (given.symm.trans given')

/-! ### Applications that raise nothing -/

/-- Between the stores a fault was raised: the exception that is pending was not there before. -/
def Raised (s t : Store) : Prop := ∃ exception, t.fault = some exception ∧ ¬ s.Issued exception

theorem raised_raiseMessage (s : Store) (message : String) : s.Raised (s.raiseMessage message) :=
  ⟨_, rfl, not_issued_nextHandle s⟩

theorem not_raised_of_none (clean : t.fault = none) : ¬ s.Raised t := by
  rintro ⟨exception, pending, _⟩
  rw [clean] at pending
  cases pending

/-- Applying anything but a family raises a fault. -/
theorem isFamily_of_not_raised (quiet : ¬ s.Raised (s.applyFamily head params).2) : s.isFamily head = true := by
  have ways := s.appliesFamily head params
  generalize s.applyFamily head params = result at ways quiet
  cases ways with
  | refused message other => exact absurd (raised_raiseMessage (s.note .applyFamily) message) quiet
  | itself family | shared family | made family => exact family

theorem isApplied_applyFamily (interned : s.Interned) (family : s.isFamily head = true) :
    (s.applyFamily head params).2.IsApplied head params (s.applyFamily head params).1 := by
  refine ⟨(acts_applyFamily (o := 0) head params).keepsTypes.isFamily interned family, ?_⟩
  split
  · next none =>
    have ways := s.appliesFamily head params
    generalize s.applyFamily head params = result at ways
    cases ways with
    | refused message other =>
      rw [family] at other
      cases other
    | itself => rfl
    | shared family given | made family given => exact absurd none given
  · next some => exact (applies_applyFamily family some).found

end Store

/-! ### Runs -/

/-- At the moment the family is applied to the parameters, which raises no fault and results in the handle. -/
structure Moment.Applies (m : Moment) (head : Handle) (params : List Handle) (h : Handle) : Prop where
  asked : m.act = .request (.applyFamily head params)
  quiet : ¬ m.store.Raised (m.store.applyFamily head params).2
  result : (m.store.applyFamily head params).1 = h

theorem Moment.applies_of_clean {s : Store} {held : List CellId} {head : Handle} {params : List Handle}
    (clean : (s.applyFamily head params).2.fault = none) :
    Moment.Applies ⟨s, held, .request (.applyFamily head params)⟩ head params (s.applyFamily head params).1 :=
  ⟨rfl, Store.not_raised_of_none clean, rfl⟩

theorem Moment.Applies.isApplied {m : Moment} {head h : Handle} {params : List Handle} (applies : m.Applies head params h)
    (interned : m.store.Interned) {t : Store} (leaves : m.Leaves t) : t.IsApplied head params h := by
  rw [leaves head params applies.asked, ← applies.result]
  exact Store.isApplied_applyFamily interned (Store.isFamily_of_not_raised applies.quiet)

/-- **Foreign types have an identity.** The tables of a new store agree with its slots, and if those of a store do, they
still do at every moment of a run that goes on from it, whatever handles it passes around and whenever it collects. So two applications that raise no fault have the same result exactly
if they apply the same family to the same parameters; without parameters the result is the family itself. The result of
an application is live from then on. -/
theorem Store.types_identified :
    (∀ version stack, (Store.ofVersion version stack).Interned) ∧
    ∀ (program : Program) (r : Store.Running), r.store.Interned →
      let moments := Store.programMoments Store.call Store.callMoments [] program r
      let last := (Store.run Store.call program r).2.store
      (∀ m ∈ moments, m.store.Interned) ∧ last.Interned ∧
        ∀ pre m post, moments = pre ++ m :: post → ∀ head params h, m.Applies head params h →
          (params = [] → h = head) ∧
          (∀ later ∈ post, ∀ head' params' h', later.Applies head' params' h' →
            (h = h' ↔ head = head' ∧ params = params')) ∧
          (∀ later ∈ post, later.store.isLive h = true) ∧ last.isLive h = true := by
  refine ⟨interned_ofVersion, ?_⟩
  intro program r interned moments last
  have traces := traces_run traces_call [] program (r := r)
  have always : ∀ m ∈ moments, m.store.Interned := fun m hm => by
    obtain ⟨pre, post, split⟩ := List.append_of_mem hm
    exact (traces.to_moment split).keepsTypes.interned interned
  refine ⟨always, traces.acts.keepsTypes.interned interned, fun pre m post split head params h applies => ?_⟩
  have now := always m (split ▸ List.mem_append_cons_self)
  obtain ⟨w, q, leaves, rest⟩ := traces.from_moment split
  have applied := applies.isApplied now leaves
  have interned' : w.Interned := by
    rw [leaves head params applies.asked]
    exact (Store.acts_applyFamily (o := 0) head params).keepsTypes.interned now
  -- what the family gives for the parameters is the same at every later moment
  have at_later : ∀ later ∈ post, later.store.Interned ∧ later.store.IsApplied head params h := fun later hl => by
    obtain ⟨mid, post', rfl⟩ := List.append_of_mem hl
    have keeps := (rest.to_moment rfl).keepsTypes
    exact ⟨keeps.interned interned', applied.later interned' keeps⟩
  refine ⟨fun none => ?_, fun later hl head' params' h' applies' => ?_,
    fun later hl => (at_later later hl).2.isLive (at_later later hl).1,
    (applied.later interned' rest.acts.keepsTypes).isLive (rest.acts.keepsTypes.interned interned')⟩
  · have given := applied.2
    rwa [if_pos none] at given
  · obtain ⟨there, same⟩ := at_later later hl
    have applied' := applies'.isApplied there (t := (later.store.applyFamily head' params').2) fun f ps same => by
      obtain ⟨rfl, rfl⟩ := Request.applyFamily.inj (Act.request.inj (applies'.asked.symm.trans same))
      rfl
    have keeps := (Store.acts_applyFamily (s := later.store) (o := 0) head' params').keepsTypes
    exact (same.later there keeps).eq_iff (keeps.interned there) applied'

/-- Arrays of integers are the same type again after a collection. -/
theorem Store.types_identified_afterCollection :
    let program : Program :=
      .ask (.applyFamily ⟨3⟩ [⟨2⟩]) fun _ => .ask .collect fun _ => .ask (.applyFamily ⟨3⟩ [⟨2⟩]) fun again => .done again
    (Store.run Store.call program ⟨.providing (.ofNumbers 4 11 0) ["long", "pm::Array"], []⟩).1 = .ok ⟨4⟩ := by
  intro program
  obtain ⟨start, same, interned, family, ⟨clean, made⟩⟩ : ∃ start : Store,
      start = .providing (.ofNumbers 4 11 0) ["long", "pm::Array"] ∧ start.Interned ∧ start.isFamily ⟨3⟩ = true ∧
      (start.applyFamily ⟨3⟩ [⟨2⟩]).2.fault = none ∧ (start.applyFamily ⟨3⟩ [⟨2⟩]).1 = ⟨4⟩ :=
    ⟨_, rfl, interned_providing _ _ _, by decide +kernel, by decide +kernel, by decide +kernel⟩
  rw [← same]
  have later := (acts_applyFamily (s := start) (o := 0) ⟨3⟩ [⟨2⟩]).keepsTypes
  have split : programMoments call callMoments [] program ⟨start, []⟩ =
      [] ++ ⟨start, [], .request (.applyFamily ⟨3⟩ [⟨2⟩])⟩ ::
        [⟨(start.applyFamily ⟨3⟩ [⟨2⟩]).2, [], .request .collect⟩,
          ⟨(start.applyFamily ⟨3⟩ [⟨2⟩]).2.collect.2, [], .request (.applyFamily ⟨3⟩ [⟨2⟩])⟩, ⟨_, [], .result _⟩] := rfl
  have again : (run call program ⟨start, []⟩).1 =
      .ok ((start.applyFamily ⟨3⟩ [⟨2⟩]).2.collect.2.applyFamily ⟨3⟩ [⟨2⟩]).1 := rfl
  have identifies :=
    (types_identified.2 program ⟨start, []⟩ interned).2.2 _ _ _ split _ _ _ (Moment.applies_of_clean clean)
  clear_value program
  generalize (start.applyFamily ⟨3⟩ [⟨2⟩]).2 = applied at *
  have fault : (applied.collect.2.applyFamily ⟨3⟩ [⟨2⟩]).2.fault = none := by
    have family' : applied.collect.2.isFamily ⟨3⟩ = true :=
      (later.trans (acts_collect (o := 0)).keepsTypes).isFamily interned family
    rw [(applies_applyFamily family' (List.cons_ne_nil _ _)).fault, collect_eq]
    exact (fault_releaseAll _ _).trans ((fault_sweep applied).trans clean)
  have same := (identifies.2.1 _ (.tail _ (.head _)) ⟨3⟩ [⟨2⟩] _ (Moment.applies_of_clean fault)).mpr ⟨rfl, rfl⟩
  rw [again, ← same, made]

end ForeignBridge
