import ForeignBridge.Proofs.Activity

/-! # Interning

A store is *interned* if its two tables agree with its slots: a family stands in the table at the handle of the slot that
holds it, and an applied type likewise, so neither is there twice; and an applied type is over a family and has
parameters. Every store starts interned, and stays so whatever goes on (`Acts.keepsTypes`):

* a family or an applied type gets a slot only where the table has none for it, and the slot is a new one, since the
  counter is ahead of every handle that has a slot;
* a collection spares what is in the tables;
* nothing else touches the tables or those slots (`SameTypes`).

What is in the tables stays there (`Acts.keepsTypes`). -/

namespace ForeignBridge

namespace Store

variable {s t w : Store} {o o' : Multiset CellId} {name : String} {head h : Handle} {params : List Handle}
  {object : Object}

/-- The tables agree with the slots. New stores are so, and whatever goes on keeps it (`interned_ofVersion`,
`Acts.keepsTypes`); so a result on interned stores is one on all stores that operations lead to. -/
structure Interned (s : Store) : Prop where
  family : ∀ {name h}, s.family? name = some h ↔ s.object? h = some (.family name)
  applied : ∀ {head params h}, s.applied? head params = some h ↔ s.object? h = some (.type head params)
  heads : ∀ {h head params}, s.object? h = some (.type head params) → s.isFamily head = true ∧ params ≠ []

theorem isFamily_iff : s.isFamily h = true ↔ ∃ name, s.object? h = some (.family name) := by
  unfold isFamily
  split
  · next name found => exact ⟨fun _ => ⟨name, found⟩, fun _ => rfl⟩
  · next other => exact iff_of_false Bool.false_ne_true fun ⟨name, found⟩ => other name found

namespace Interned

theorem isFamily (interned : s.Interned) (found : s.family? name = some h) : s.isFamily h = true :=
  isFamily_iff.mpr ⟨name, interned.family.mp found⟩

/-- The counter is ahead of every handle in the tables. -/
theorem issued_family? (interned : s.Interned) (found : s.family? name = some h) : s.Issued h :=
  issued_of_object? (interned.family.mp found)

theorem issued_applied? (interned : s.Interned) (found : s.applied? head params = some h) : s.Issued h :=
  issued_of_object? (interned.applied.mp found)

/-- A slot with a family or an applied type stands in a table. -/
theorem mem_entries (interned : s.Interned) (entry : object.isTypeEntry = true) (found : s.object? h = some object) :
    h ∈ s.entries := by
  cases object with
  | family name =>
    have listed := Keyed.mem_of_get? (interned.family.mpr found)
    exact Store.mem_entries.mpr (.inl (List.mem_map_of_mem listed))
  | type head params =>
    exact Store.mem_entries.mpr (.inr (List.mem_map_of_mem (Assoc.mem_of_lookup (interned.applied.mpr found))))
  | value | module | function | structured => cases entry

end Interned

/-! ### New slots -/

theorem object?_pushSlot_eq_some {other : Object} : (s.pushSlot object).object? h = some other ↔
    (object = other ∧ h = s.nextHandle) ∨ s.object? h = some other := by
  rw [object?_pushSlot]
  split
  · next same =>
    have empty : s.object? s.nextHandle = none := object?_of_not_issued (not_issued_nextHandle s)
    simp [empty, same]
  · next apart => simp [apart]

theorem family?_pushSlot (enters : s.Enters object) : (s.pushSlot object).family? name = some h ↔
    (object = .family name ∧ h = s.nextHandle) ∨ s.family? name = some h := by
  cases object with
  | family own =>
    show (s.families.insert own s.nextHandle).get? name = some h ↔ _
    rw [Keyed.get?_insert]
    by_cases same : name = own
    · subst same
      have free : s.family? name = none := enters.family name rfl
      simp [free, eq_comm]
    · simp [same, Ne.symm same, family?]
  | value | module | function | type | structured => exact (or_iff_right (by simp)).symm

theorem applied?_pushSlot (enters : s.Enters object) : (s.pushSlot object).applied? head params = some h ↔
    (object = .type head params ∧ h = s.nextHandle) ∨ s.applied? head params = some h := by
  cases object with
  | type own ps =>
    show (s.applied.insert (own, ps) s.nextHandle).lookup (head, params) = some h ↔ _
    rw [Assoc.lookup_insert]
    by_cases same : (head, params) = (own, ps)
    · obtain ⟨rfl, rfl⟩ := Prod.mk.inj same
      have free : s.applied? head params = none := (enters.type head params rfl).2.2
      simp [free, eq_comm]
    · have apart : Object.type own ps ≠ .type head params := fun e => same (by cases e; rfl)
      rw [beq_false_of_ne same, or_iff_right fun both => apart both.1]
      rfl
  | value | module | function | family | structured => exact (or_iff_right (by simp)).symm

/-- What is entered is found where it was put. -/
theorem Interned.pushSlot (interned : s.Interned) (enters : s.Enters object) : (s.pushSlot object).Interned where
  family := (family?_pushSlot enters).trans ((or_congr_right interned.family).trans object?_pushSlot_eq_some.symm)
  applied := (applied?_pushSlot enters).trans ((or_congr_right interned.applied).trans object?_pushSlot_eq_some.symm)
  heads found := by
    have stays : ∀ {k}, s.isFamily k = true → (s.pushSlot object).isFamily k = true := fun family => by
      obtain ⟨name, there⟩ := isFamily_iff.mp family
      exact isFamily_iff.mpr ⟨name, object?_pushSlot_eq_some.mpr (.inr there)⟩
    rcases object?_pushSlot_eq_some.mp found with ⟨rfl, _⟩ | old
    · obtain ⟨family, given, _⟩ := enters.type _ _ rfl
      exact ⟨stays family, given⟩
    · exact ⟨stays (interned.heads old).1, (interned.heads old).2⟩

/-! ### Everything else -/

/-- The families and applied types are the same ones, in the same slots and tables. -/
structure SameTypes (s t : Store) : Prop where
  objects : ∀ {object h}, object.isTypeEntry = true → (t.object? h = some object ↔ s.object? h = some object)
  families : t.families = s.families
  applied : t.applied = s.applied

theorem SameTypes.interned (same : s.SameTypes t) (interned : s.Interned) : t.Interned where
  family := by
    unfold family?
    rw [same.families]
    exact interned.family.trans (same.objects rfl).symm
  applied := by
    unfold applied?
    rw [same.applied]
    exact interned.applied.trans (same.objects rfl).symm
  heads found := by
    obtain ⟨family, given⟩ := interned.heads ((same.objects rfl).mp found)
    obtain ⟨name, there⟩ := isFamily_iff.mp family
    exact ⟨isFamily_iff.mpr ⟨name, (same.objects rfl).mpr there⟩, given⟩

theorem sameTypes_of_objects (objects : ∀ h, t.object? h = s.object? h) (families : t.families = s.families)
    (applied : t.applied = s.applied) : s.SameTypes t where
  objects {object h} _ := by rw [objects h]
  families := families
  applied := applied

theorem sameTypes_root (s : Store) (h : Handle) : s.SameTypes (s.root h) :=
  sameTypes_of_objects (object?_root s h) (families_updateSlot s h _) (applied_updateSlot s h _)

theorem sameTypes_unroot (s : Store) (h : Handle) : s.SameTypes (s.unroot h) :=
  sameTypes_of_objects (object?_unroot s h) (families_updateSlot s h _) (applied_updateSlot s h _)

theorem sameTypes_release (s : Store) (c : CellId) : s.SameTypes (s.release c) :=
  sameTypes_of_objects (object?_release s c)
    (apply_release Store.families (fun _ _ _ => rfl) (fun s h => families_updateSlot s h _) s c)
    (apply_release Store.applied (fun _ _ _ => rfl) (fun s h => applied_updateSlot s h _) s c)

/-- A new member changes nothing but the namespace that it is put into. -/
theorem object?_setMember_of_isTypeEntry (s : Store) (parent : Handle) (name : String) (value : Handle)
    (entry : object.isTypeEntry = true) :
    (s.setMember parent name value).object? h = some object ↔ s.object? h = some object := by
  unfold setMember
  rw [object?_updateSlot]
  split
  · next same =>
    subst same
    cases live : s.slot? h with
    | none => simp [object?, live]
    | some slot =>
      rw [object?, live, Option.map_some, Option.map_some]
      split
      · next own members module =>
        -- neither the old namespace nor the new one is such an object
        have apart : ∀ ms, Object.module own ms ≠ object := fun ms same => by
          rw [← same] at entry
          cases entry
        simp [module, apart]
      · rfl
  · rfl

theorem sameTypes_setMember (s : Store) (parent : Handle) (name : String) (value : Handle) :
    s.SameTypes (s.setMember parent name value) where
  objects := object?_setMember_of_isTypeEntry s parent name value
  families := families_updateSlot s parent _
  applied := applied_updateSlot s parent _

/-- A change leaves the families and applied types as they are, or it fills a new slot. -/
theorem Change.sameTypes_or_push (change : s.Change o t o') :
    s.SameTypes t ∨ ∃ object, s.Enters object ∧ t = s.pushSlot object := by
  cases change with
  | log | fault | newCell | retain => exact .inl (sameTypes_of_objects (fun _ => object?_congr rfl _) rfl rfl)
  | root o h => exact .inl (sameTypes_root s h)
  | unroot o h => exact .inl (sameTypes_unroot s h)
  | setMember o parent name h => exact .inl (sameTypes_setMember s parent name h)
  | push o object enters => exact .inr ⟨object, enters, rfl⟩
  | hold o h =>
    rw [hold_eq]
    exact .inl (sameTypes_of_objects (object?_root s h) (sameTypes_root s h).families (sameTypes_root s h).applied)
  | bind t o c h bound =>
    obtain ⟨_, rfl⟩ := bind_eq_ok.mp bound
    exact .inl (sameTypes_of_objects (object?_root s h) (sameTypes_root s h).families (sameTypes_root s h).applied)
  | release o c => exact .inl (sameTypes_release s c)

/-- **A collection spares what is in the tables.** -/
theorem Interned.sweep (interned : s.Interned) : s.SameTypes s.sweep where
  objects {object h} entry := by
    constructor
    · intro found
      obtain ⟨slot, live, rfl⟩ := object?_eq_some.mp found
      exact object?_eq_some.mpr ⟨slot, slot?_of_slot?_sweep live, rfl⟩
    · intro found
      have anchor : h ∈ s.anchors := mem_anchors.mpr (.inr (.inr (.inl (interned.mem_entries entry found))))
      rwa [object?_sweep_of_reached ⟨h, anchor, .refl⟩]
  families := families_sweep s
  applied := applied_sweep s

/-! ### What is in the tables stays there -/

/-- Every family and applied type is still found at the same handle, and the tables agree with the slots if they did. -/
structure KeepsTypes (s t : Store) : Prop where
  family : ∀ {name : String} {h : Handle}, s.family? name = some h → t.family? name = some h
  applied : ∀ {head h : Handle} {params : List Handle},
    s.applied? head params = some h → t.applied? head params = some h
  interned : s.Interned → t.Interned

theorem KeepsTypes.refl (s : Store) : s.KeepsTypes s := ⟨id, id, id⟩

theorem KeepsTypes.trans (first : s.KeepsTypes t) (second : t.KeepsTypes w) : s.KeepsTypes w :=
  ⟨second.family ∘ first.family, second.applied ∘ first.applied, second.interned ∘ first.interned⟩

theorem SameTypes.keepsTypes (same : s.SameTypes t) : s.KeepsTypes t where
  family found := by rwa [family?, same.families]
  applied found := by rwa [applied?, same.applied]
  interned := same.interned

theorem keepsTypes_pushSlot (enters : s.Enters object) : s.KeepsTypes (s.pushSlot object) where
  family found := (family?_pushSlot enters).mpr (.inr found)
  applied found := (applied?_pushSlot enters).mpr (.inr found)
  interned interned := interned.pushSlot enters

theorem keepsTypes_sweep (s : Store) : s.KeepsTypes s.sweep where
  family found := by rwa [family?, families_sweep]
  applied found := by rwa [applied?, applied_sweep]
  interned interned := interned.sweep.interned interned

theorem Change.keepsTypes (change : s.Change o t o') : s.KeepsTypes t := by
  obtain same | ⟨object, enters, rfl⟩ := change.sameTypes_or_push
  · exact same.keepsTypes
  · exact keepsTypes_pushSlot enters

/-- **No activity moves a family or an applied type**, and interned stores stay so. -/
theorem Acts.keepsTypes (acts : s.Acts o t o') : s.KeepsTypes t := by
  induction acts with
  | refl => exact .refl s
  | change _ change ih => exact ih.trans change.keepsTypes
  | @sweep t _ _ ih => exact ih.trans (keepsTypes_sweep t)

/-- What is a family stays one. -/
theorem KeepsTypes.isFamily (keeps : s.KeepsTypes t) (interned : s.Interned) (family : s.isFamily h = true) :
    t.isFamily h = true := by
  obtain ⟨name, there⟩ := isFamily_iff.mp family
  exact (keeps.interned interned).isFamily (keeps.family (interned.family.mpr there))

/-! ### Stores start interned -/

theorem interned_ofVersion (version : Version) (stack : ℕ) : (ofVersion version stack).Interned := by
  have main : ∀ {h object}, (ofVersion version stack).object? h = some object → object.isTypeEntry = false := by
    intro h object found
    obtain ⟨slot, live, rfl⟩ := object?_eq_some.mp found
    obtain ⟨_ | _ | _⟩ := h
    · cases live
    · obtain rfl := Option.some.inj live
      rfl
    · cases live
  constructor
  · exact iff_of_false (by simp [family?, ofVersion, Keyed.get?]) fun found =>
      absurd (main found) (by simp [Object.isTypeEntry])
  · exact iff_of_false (by simp [applied?, ofVersion]) fun found => absurd (main found) (by simp [Object.isTypeEntry])
  · exact fun found => absurd (main found) (by simp [Object.isTypeEntry])

theorem interned_providing (version : Version) (names : List String) (stack : ℕ) :
    (providing version names stack).Interned := by
  have all : ∀ (names : List String) {s : Store}, s.Interned →
      (names.foldl (fun s name => (s.provideFamily name).2) s).Interned := by
    intro names
    induction names with
    | nil => exact id
    | cons name names ih => exact fun interned => ih ((acts_provideFamily (o := 0) name).keepsTypes.interned interned)
  exact all names (interned_ofVersion version stack)

end Store

end ForeignBridge
