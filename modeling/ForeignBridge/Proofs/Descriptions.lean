import ForeignBridge.Proofs.Custody
import ForeignBridge.Proofs.Faults
import ForeignBridge.Proofs.Paths
import ForeignBridge.Proofs.Returns

/-! # Descriptions come to an end

Nothing keeps a description from going in a circle (`Describes`), and a check for a fault waits for the description of
the exception (`TakesFault`). What makes both end is the age of slots (`Layered`): an array, a dictionary, an applied
type or an object refers only to slots that were there before it. Every move keeps this (`Move.layered`), as nothing but
a namespace is changed once it is made, and a collection only takes slots away. Namespaces may refer to younger slots,
but they are not described through their members. So in every store that a program comes to, descriptions and checks
end, if handles that were not returned are not passed in (`descriptions_end`). -/

namespace ForeignBridge

namespace Store

variable {s t : Store} {h k : Handle} {object : Object} {depth : ℕ}

/-! ### The age of slots -/

/-- Every object but a namespace refers only to slots that are older than its own, be it an array, a dictionary, an
applied type or an object of a type. -/
def Layered (s : Store) : Prop :=
  ∀ h object, s.object? h = some object → (∀ own members, object ≠ .module own members) →
    ∀ k ∈ object.handles, k.raw < h.raw

theorem Layered.of_objects (layered : s.Layered)
    (objects : ∀ h object, t.object? h = some object → (∀ own members, object ≠ .module own members) →
      s.object? h = some object) : t.Layered :=
  fun h object found other => layered h object (objects h object found other) other

theorem Layered.congr (layered : s.Layered) (same : ∀ k, t.object? k = s.object? k) : t.Layered :=
  layered.of_objects fun h _ found _ => (same h).symm.trans found

/-- Only namespaces are changed when a member is put somewhere. -/
theorem Layered.setMember (layered : s.Layered) (parent : Handle) (name : String) (value : Handle) :
    (s.setMember parent name value).Layered := by
  refine layered.of_objects fun h object found other => ?_
  rw [object?_setMember] at found
  split at found
  · next same =>
    subst same
    obtain ⟨old, there, changed⟩ := Option.map_eq_some_iff.mp found
    cases old with
    | module own members => exact absurd changed.symm (other _ _)
    | _ => exact changed ▸ there
  · exact found

/-- A new slot is younger than everything that was handed out. -/
theorem Layered.pushSlot (layered : s.Layered) (issued : ∀ k ∈ object.handles, s.Issued k) :
    (s.pushSlot object).Layered := by
  intro h o found other k hk
  rw [object?_pushSlot] at found
  split at found
  · next new =>
    obtain rfl := Option.some.inj found
    rw [new]
    exact Nat.lt_succ_of_le (issued k hk)
  · exact layered h o found other k hk

theorem layered_ofVersion (version : Version) (stack : ℕ) : (ofVersion version stack).Layered := by
  intro h object found other
  obtain ⟨slot, live, rfl⟩ := object?_eq_some.mp found
  obtain ⟨-, rfl⟩ := Ledger.slot?_ofVersion live
  exact absurd rfl (other _ _)

end Store

namespace Ledger

variable {L L' : Ledger}

/-- Every move keeps the order of age. -/
theorem Move.layered (move : Move L L') (layered : L.store.Layered) : L'.store.Layered := by
  cases move with
  | log | forget | fault | newCell | retain => exact layered
  | root s o r u h => exact layered.congr (Store.object?_root s h)
  | unroot s o r u h => exact layered.congr (Store.object?_unroot s h)
  | setMember s o r u parent name h => exact layered.setMember parent name h
  | push s o r u object admitted => exact layered.pushSlot admitted.issued
  | hold s o r u h => exact layered.congr (Store.object?_hold s h)
  | bind s t o r u c h _ _ bound =>
    obtain ⟨_, rfl⟩ := Store.bind_eq_ok.mp bound
    exact layered.congr (Store.object?_root s h)
  | release s o r u c => exact layered.congr (Store.object?_release s c)

theorem Sweep.layered (sweep : Sweep L L') (layered : L.store.Layered) : L'.store.Layered := by
  cases sweep with
  | sweep s o r u =>
    refine layered.of_objects fun h object found _ => ?_
    obtain ⟨slot, live, same⟩ := Store.object?_eq_some.mp found
    exact Store.object?_eq_some.mpr ⟨slot, Store.slot?_of_slot?_sweep live, same⟩

/-- **Whatever goes on, objects refer to older slots.** -/
theorem Evolves.layered (evolves : Evolves L L') (layered : L.store.Layered) : L'.store.Layered := by
  induction evolves with
  | refl => exact layered
  | tail _ last ih =>
    rcases last with move | sweep
    · exact move.layered ih
    · exact sweep.layered ih

end Ledger

namespace Store

variable {s : Store} {h : Handle} {object : Object} {depth : ℕ}

/-! ### Descriptions end -/

theorem isSome_mapM {f : Handle → Option (Option String)} : ∀ items : List Handle, (∀ k ∈ items, (f k).isSome) →
    (items.mapM f).isSome
  | [], _ => rfl
  | k :: items, all => by
    obtain ⟨text, first⟩ := Option.isSome_iff_exists.mp (all k List.mem_cons_self)
    obtain ⟨texts, rest⟩ := Option.isSome_iff_exists.mp (isSome_mapM items fun j hj => all j (List.mem_cons_of_mem _ hj))
    simp [List.mapM_cons, first, rest]

/-- An object is described if the slots that it refers to are; a namespace is described in any case. -/
theorem isSome_describeObject {f : Handle → Option (Option String)}
    (all : (∀ own members, object ≠ .module own members) → ∀ k ∈ object.handles, (f k).isSome) :
    (s.describeObject f object).isSome := by
  cases object with
  | value data =>
    cases data with
    | array items =>
      obtain ⟨texts, described⟩ :=
        Option.isSome_iff_exists.mp (isSome_mapM items (all fun _ _ same => by cases same))
      simp [describeObject, describeDatum, described]
    | _ => rfl
  | type head params =>
    have through := all fun _ _ same => by cases same
    obtain ⟨name, named⟩ := Option.isSome_iff_exists.mp (through head List.mem_cons_self)
    obtain ⟨texts, described⟩ := Option.isSome_iff_exists.mp
      (isSome_mapM params fun k hk => through k (List.mem_cons_of_mem _ hk))
    cases name with
    | none => simp [describeObject, named]
    | some name =>
      simp only [describeObject, named, described, Option.bind_eq_bind, Option.bind_some]
      split <;> rfl
  | structured head fields =>
    obtain ⟨name, named⟩ := Option.isSome_iff_exists.mp
      (all (fun _ _ same => by cases same) head List.mem_cons_self)
    simp [describeObject, named]
  | module | function | family => rfl

/-- As a description goes only to older slots, it ends after as many of them as the number of its slot says. -/
theorem Layered.isSome_describeWithin (layered : s.Layered) (deep : h.raw < depth) :
    (s.describeWithin depth h).isSome := by
  induction depth generalizing h with
  | zero => exact absurd deep (Nat.not_lt_zero _)
  | succ depth ih =>
    cases found : s.object? h with
    | none =>
      rw [describeWithin_of_none found]
      rfl
    | some object =>
      rw [describeWithin_of_some found]
      refine isSome_describeObject fun other k inside => ih ?_
      exact (layered h object found other k inside).trans_le (Nat.le_of_lt_succ deep)

/-- **Where objects refer to older slots, every description ends.** -/
theorem Layered.describes (layered : s.Layered) (h : Handle) : s.Describes h (s.describe h).1 := by
  obtain ⟨text, ended⟩ := Option.isSome_iff_exists.mp (layered.isSome_describeWithin (Nat.lt_succ_self h.raw))
  have described := describes_of_describeWithin ended
  rwa [describe_of_describes described]

/-- **And so does every check for a fault.** -/
theorem Layered.takesFault (layered : s.Layered) : s.TakesFault s.takeFault := by
  cases pending : s.fault with
  | none =>
    rw [takeFault_of_none pending]
    exact .clean pending
  | some exception =>
    have described := layered.describes exception
    rw [takeFault_of_some pending described]
    exact .faulted pending described

/-- The stores that a program comes to: those at its moments, also in the calls that it makes, and the one in the end. -/
def visited (program : Program) (r : Running) : List Store :=
  (programMoments call callMoments [] program r).map Moment.store ++ [(run call program r).2.store]

/-- A program that passes in only handles that were handed out comes only to stores in which objects refer to older
slots. -/
theorem layered_visited {version : Version} {stack : ℕ} {program : Program}
    (passes : ∀ m ∈ programMoments call callMoments [] program ⟨.ofVersion version stack, []⟩, m.Passes) :
    ∀ s ∈ visited program ⟨.ofVersion version stack, []⟩, s.Layered := by
  have sound : Ledger.Sound ⟨.ofVersion version stack, ([] ++ [] : List CellId), 0, 0⟩ :=
    Ledger.sound_initial version stack
  obtain ⟨⟨R, U, along⟩, -⟩ :=
    Ledger.along_run Ledger.along_call program (r := ⟨.ofVersion version stack, []⟩) sound passes
  intro s visited
  rcases List.mem_append.mp visited with moment | last
  · obtain ⟨m, hm, rfl⟩ := List.mem_map.mp moment
    obtain ⟨pre, post, split⟩ := List.append_of_mem hm
    exact (along.at_moment split).layered (layered_ofVersion version stack)
  · rw [List.mem_singleton.mp last]
    exact along.evolves.layered (layered_ofVersion version stack)

/-- **Descriptions come to an end.** In every store that a program comes to, if every handle that is passed in, by the
program or by a function that it calls, is null or was returned before: every object but a namespace refers only to
slots that are older than its own, the description of every handle comes to an end, and so does the check for a fault.
Both end in one way only, which is what `describe` and `takeFault` give. -/
theorem descriptions_end (version : Version) (stack : ℕ) (program : Program) {returned : List Handle}
    (honest : runReturned call callReturned program ⟨.ofVersion version stack, []⟩ [mainModule] = some returned) :
    ∀ s ∈ visited program ⟨.ofVersion version stack, []⟩,
      s.Layered ∧
      (∀ h, s.Describes h (s.describe h).1 ∧ ∀ text, s.Describes h text → text = (s.describe h).1) ∧
      s.TakesFault s.takeFault ∧ ∀ outcome, s.TakesFault outcome → outcome = s.takeFault := by
  have sound : Ledger.Sound ⟨.ofVersion version stack, ([] ++ [] : List CellId), 0, 0⟩ :=
    Ledger.sound_initial version stack
  have main : ∀ h ∈ [mainModule], (ofVersion version stack).Issued h := List.forall_mem_singleton.mpr le_rfl
  obtain ⟨passes, -⟩ := Ledger.passes_run Ledger.along_call Ledger.passes_call program
    (r := ⟨.ofVersion version stack, []⟩) sound main honest
  intro s visited
  have layered := layered_visited passes s visited
  exact ⟨layered, fun h => ⟨layered.describes h, fun text described => described.unique (layered.describes h)⟩,
    layered.takesFault, fun outcome taken => taken.eq.symm⟩

/-- The exception is an array that a function makes of its argument. -/
theorem descriptions_end_nestedException :
    let program : Program :=
      .ask (.provideFamily "long") fun long => .ask (.provideFamily "pm::Array") fun array =>
      .ask (.applyFamily array [long]) fun type => .ask (.create type [("first", .array [long])]) fun object =>
      .define "" "wrap" [] (fun args => .ask (.construct (.array args)) fun items =>
        .ask (.raise (.array [items, .null])) fun _ => .done items) fun wrap =>
      .ask (.call wrap [object]) .done
    let start : Running := ⟨.ofVersion (.ofNumbers 1 0 0), []⟩
    let ended := (run call program start).2.store
    runReturned call callReturned program start [mainModule] = some [⟨8⟩, ⟨8⟩, ⟨7⟩, ⟨6⟩, ⟨4⟩, ⟨3⟩, ⟨2⟩, ⟨1⟩] ∧
      ended.Describes ⟨9⟩ (some "[[<pm::Array<long> object>], ?]") ∧
      ended.TakesFault (.error (.foreignFault "[[<pm::Array<long> object>], ?]"), ended.takeFault.2) := by
  intro program start ended
  have honest : runReturned call callReturned program start [mainModule] =
      some [⟨8⟩, ⟨8⟩, ⟨7⟩, ⟨6⟩, ⟨4⟩, ⟨3⟩, ⟨2⟩, ⟨1⟩] := by decide +kernel
  obtain ⟨-, descriptions, taken, -⟩ := descriptions_end (.ofNumbers 1 0 0) 10000 program honest ended
    (List.mem_append_right _ List.mem_cons_self)
  have text : (ended.describe ⟨9⟩).1 = some "[[<pm::Array<long> object>], ?]" := by decide +kernel
  have reported : ended.takeFault.1 = .error (.foreignFault "[[<pm::Array<long> object>], ?]") := by decide +kernel
  have described := (descriptions ⟨9⟩).1
  clear_value ended
  rw [text] at described
  rw [← reported]
  exact ⟨honest, described, taken⟩

end Store

end ForeignBridge
