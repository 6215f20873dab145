import ForeignBridge.Proofs.Lifetimes
import ForeignBridge.Proofs.Registrations
import ForeignBridge.Proofs.TypeEntries

/-! # What registering does

Registering a family or a type either fails, and then the registry stays, or it adds one entry (`withFamily`,
`withType`) under a new cell. What keeps a template from being registered is a function of the registry and the store
(`hindrance?`).

A registry is *faithful* to a store if its cells are bound to what its families and types stand for, if its history
lists exactly its types, and if every type comes after its parameters. Both operations keep it so, as long as the cells
of the new registry are still held. -/

namespace ForeignBridge

/-! ### New cells -/

namespace Store

/-- The store in which `h` is held by a new cell, perhaps by more than one holder. -/
def holding (h : Handle) (shares : List CellId) (s : Store) : Store := (s.hold h).2.retainAll shares

@[simp] theorem object?_holding (h : Handle) (shares : List CellId) (s : Store) (k : Handle) :
    (s.holding h shares).object? k = s.object? k := by
  rw [holding, object?_congr (Ledger.slots_retainAll shares _), object?_hold]

@[simp] theorem binding?_holding (h : Handle) (shares : List CellId) (s : Store) (d : CellId) :
    (s.holding h shares).binding? d = if d = s.nextCell then some h else s.binding? d := by
  rw [holding, binding?_retainAll, binding?_hold]

theorem protocol_holding (h : Handle) (shares : List CellId) (s : Store) :
    (s.holding h shares).protocol = s.protocol :=
  (protocol_retainAll shares _).trans (protocol_hold s h)

theorem version_updateSlot (s : Store) (h : Handle) (f : Slot → Slot) : (s.updateSlot h f).version = s.version := by
  unfold updateSlot
  split <;> rfl

theorem version_release (s : Store) (c : CellId) : (s.release c).version = s.version :=
  apply_release version (fun _ _ _ => rfl) (fun s h => version_updateSlot s h _) s c

@[simp] theorem version_releaseAll (cs : List CellId) : ∀ s : Store, (s.releaseAll cs).version = s.version :=
  apply_releaseAll version version_release cs

@[simp] theorem version_retainAll (cs : List CellId) : ∀ s : Store, (s.retainAll cs).version = s.version :=
  apply_retainAll version (fun _ _ => rfl) cs

@[simp] theorem version_holding (h : Handle) (shares : List CellId) (s : Store) :
    (s.holding h shares).version = s.version := by
  rw [holding, version_retainAll, hold_eq]
  exact version_updateSlot s h _

theorem sameTypes_holding (h : Handle) (shares : List CellId) (s : Store) : s.SameTypes (s.holding h shares) := by
  have held : s.SameTypes (s.hold h).2 := by
    rw [hold_eq]
    exact sameTypes_of_objects (object?_root s h) (sameTypes_root s h).families (sameTypes_root s h).applied
  refine sameTypes_of_objects (object?_holding h shares s) ?_ ?_
  · exact (apply_retainAll Store.families (fun _ _ => rfl) shares _).trans held.families
  · exact (apply_retainAll Store.applied (fun _ _ => rfl) shares _).trans held.applied

theorem sameTypes_releaseAll (cs : List CellId) (s : Store) : s.SameTypes (s.releaseAll cs) :=
  sameTypes_of_objects (fun h => object?_releaseAll cs h s)
    (apply_releaseAll Store.families (fun s c => (sameTypes_release s c).families) cs s)
    (apply_releaseAll Store.applied (fun s c => (sameTypes_release s c).applied) cs s)

theorem keepsTypes_holding (h : Handle) (shares : List CellId) (s : Store) : s.KeepsTypes (s.holding h shares) :=
  (sameTypes_holding h shares s).keepsTypes

theorem keepsTypes_releaseAll (cs : List CellId) (s : Store) : s.KeepsTypes (s.releaseAll cs) :=
  (sameTypes_releaseAll cs s).keepsTypes

end Store

namespace Registry

variable {r : Registry} {s : Store}

/-! ### Entries -/

/-- The registry with one more registration of a type. -/
def withType (e : TypeExpr) (c : CellId) (h : Handle) (r : Registry) : Registry :=
  ⟨r.families, r.types.insert e c, r.byHandle.insert h e, r.order ++ [e]⟩

/-- The registry with a family, and its single type if it has no parameters. -/
def withFamily (t : Template) (c : CellId) (h : Handle) (r : Registry) : Registry :=
  let r := if t.isScalar then r.withType (.concrete t.family) c h else r
  { r with families := r.families.insert t.family ⟨t, c⟩ }

/-- The cells that registering a family displaces. -/
def displacedBy (t : Template) (r : Registry) : List CellId :=
  (if t.isScalar then (r.cell? (.concrete t.family)).toList else []) ++
    (r.families.get? t.family).toList.map RegisteredFamily.constructor

@[simp] theorem cell?_withType (e f : TypeExpr) (c : CellId) (h : Handle) (r : Registry) :
    (r.withType e c h).cell? f = if f = e then some c else r.cell? f := by
  show (r.types.insert e c).lookup f = _
  rw [Assoc.lookup_insert]
  simp only [beq_iff_eq]
  rfl

@[simp] theorem hostType?_withType (e : TypeExpr) (c : CellId) (h k : Handle) (r : Registry) :
    (r.withType e c h).hostType? k = if k = h then some e else r.hostType? k := by
  show (r.byHandle.insert h e).lookup k = _
  rw [Assoc.lookup_insert]
  simp only [beq_iff_eq]
  rfl

theorem isRegistered_iff {e : TypeExpr} : r.isRegistered e = true ↔ ∃ c, r.cell? e = some c :=
  Option.isSome_iff_exists

theorem lookup_of_registered (s : Store) {e : TypeExpr} (registered : r.isRegistered e = true) :
    ∃ h, r.lookup s e = some h := by
  obtain ⟨c, found⟩ := isRegistered_iff.mp registered
  exact ⟨s.read c, by rw [lookup, found, Option.map_some]⟩

@[simp] theorem isRegistered_withType (e f : TypeExpr) (c : CellId) (h : Handle) (r : Registry) :
    (r.withType e c h).isRegistered f = true ↔ f = e ∨ r.isRegistered f = true := by
  unfold isRegistered
  rw [cell?_withType]
  by_cases same : f = e <;> simp [same]

@[simp] theorem order_withType (e : TypeExpr) (c : CellId) (h : Handle) (r : Registry) :
    (r.withType e c h).order = r.order ++ [e] := rfl

theorem has_withFamily (t : Template) (c : CellId) (h : Handle) (r : Registry) (name : String) :
    (r.withFamily t c h).families.has name = (name == t.family || r.families.has name) := by
  have families : (if t.isScalar then r.withType (.concrete t.family) c h else r).families = r.families := by
    split <;> rfl
  unfold withFamily Keyed.has
  simp only [families, Keyed.get?_insert]
  by_cases same : name = t.family <;> simp [same]

theorem isRegistered_withFamily (t : Template) (c : CellId) (h : Handle) (r : Registry) (e : TypeExpr) :
    (r.withFamily t c h).isRegistered e = true ↔
      t.isScalar = true ∧ e = .concrete t.family ∨ r.isRegistered e = true := by
  show (if t.isScalar then r.withType (.concrete t.family) c h else r).isRegistered e = true ↔ _
  by_cases scalar : t.isScalar = true
  · rw [if_pos scalar, isRegistered_withType, and_iff_right scalar]
  · rw [if_neg scalar, or_iff_right fun both => scalar both.1]

theorem order_withFamily (t : Template) (c : CellId) (h : Handle) (r : Registry) :
    (r.withFamily t c h).order = r.order ++ if t.isScalar then [.concrete t.family] else [] := by
  show (if t.isScalar then r.withType (.concrete t.family) c h else r).order = _
  by_cases scalar : t.isScalar = true
  · rw [if_pos scalar, if_pos scalar, order_withType]
  · rw [if_neg scalar, if_neg scalar, List.append_nil]

theorem mem_cells_of_family {name : String} {f : RegisteredFamily} (found : r.families.get? name = some f) :
    f.constructor ∈ r.cells :=
  List.mem_append_left _ (List.mem_map.mpr ⟨_, Keyed.mem_of_get? found, rfl⟩)

theorem mem_cells_of_type {e : TypeExpr} {c : CellId} (found : r.cell? e = some c) : c ∈ r.cells := by
  obtain ⟨before, after, split, _⟩ := List.lookup_eq_some_iff.mp found
  have listed : (e, c) ∈ r.types := split ▸ List.mem_append_right before List.mem_cons_self
  exact List.mem_append_right _ (List.mem_map_of_mem listed)

/-! ### Registering a family -/

/-- What keeps a template from being registered. -/
def hindrance? (t : Template) (r : Registry) (s : Store) : Option Unavailability :=
  (obstacle? t r s.version).or
    (if t.isExtension || (s.family? t.foreignName).isSome then none else some (.noForeignType t.foreignName))

/-- The version requirement of a template, if any, can be read and is satisfied. -/
def Satisfied (t : Template) (version : Version) : Prop :=
  ∀ text, t.since = some text →
    ∃ required, Version.Requirement.ofString? text = some required ∧ required.accepts version = true

theorem obstacle?_eq_none {t : Template} {version : Version} : obstacle? t r version = none ↔
    (∀ f ∈ t.requires, r.families.has f = true) ∧ Satisfied t version := by
  unfold obstacle? Satisfied
  cases missing : t.requires.find? (!r.families.has ·) with
  | some f =>
    have absent := List.find?_some missing
    simp only [reduceCtorEq, false_iff, not_and]
    intro all
    rw [all f (List.mem_of_find?_eq_some missing)] at absent
    cases absent
  | none =>
    have all : ∀ f ∈ t.requires, r.families.has f = true := by simpa using missing
    rw [and_iff_right all]
    cases since : t.since with
    | none => simp
    | some text =>
      cases read : Version.Requirement.ofString? text with
      | none => simp [read]
      | some required => simp [read]

/-- **When a template can be registered.** -/
theorem hindrance?_eq_none {t : Template} : hindrance? t r s = none ↔
    (∀ f ∈ t.requires, r.families.has f = true) ∧ Satisfied t s.version ∧
      (t.isExtension = true ∨ (s.family? t.foreignName).isSome = true) := by
  rw [hindrance?, Option.or_eq_none_iff, obstacle?_eq_none, and_assoc]
  refine and_congr_right fun _ => and_congr_right fun _ => ?_
  rw [← Bool.or_eq_true]
  split <;> simp [*]

/-- What keeps a template from being registered depends on the families that it requires, on the version and on its
foreign name. -/
theorem hindrance?_congr {t : Template} {r' : Registry} {s' : Store}
    (has : ∀ f ∈ t.requires, r'.families.has f = r.families.has f) (version : s'.version = s.version)
    (provided : t.isExtension = true ∨ (s'.family? t.foreignName).isSome = (s.family? t.foreignName).isSome) :
    hindrance? t r' s' = hindrance? t r s := by
  have missing : t.requires.find? (!r'.families.has ·) = t.requires.find? (!r.families.has ·) :=
    List.find?_congr fun f hf => by rw [has f hf]
  have bound : (t.isExtension || (s'.family? t.foreignName).isSome) =
      (t.isExtension || (s.family? t.foreignName).isSome) := by
    rcases provided with extension | same
    · rw [extension, Bool.true_or, Bool.true_or]
    · rw [same]
  unfold hindrance? obstacle?
  rw [missing, version, bound]

theorem hindrance?_of_families {t : Template} {s' : Store} (families : s'.families = s.families)
    (version : s'.version = s.version) : hindrance? t r s' = hindrance? t r s :=
  hindrance?_congr (fun _ _ => rfl) version (.inr (by rw [Store.family?, Store.family?, families]))

theorem addFamily_of_hindrance {t : Template} {cause : Unavailability} (found : hindrance? t r s = some cause) :
    r.addFamily t s = (.error (.unavailable t.family cause), r, s) := by
  unfold hindrance? at found
  unfold addFamily
  cases obstacle : obstacle? t r s.version with
  | some cause' =>
    rw [obstacle, Option.some_or] at found
    obtain rfl := Option.some.inj found
    rfl
  | none =>
    rw [obstacle, Option.none_or] at found
    split at found
    · cases found
    · next absent =>
      obtain rfl := Option.some.inj found
      simp only [Bool.or_eq_true, not_or, Bool.not_eq_true, Option.isSome_eq_false_iff, Option.isNone_iff_eq_none]
        at absent
      simp only [absent.1, absent.2, Bool.false_eq_true, if_false]

theorem addFamily_of_extension {t : Template} (free : hindrance? t r s = none) (extension : t.isExtension = true) :
    r.addFamily t s = (.ok (), r, s) := by
  rw [hindrance?, Option.or_eq_none_iff] at free
  unfold addFamily
  rw [free.1]
  exact if_pos extension

theorem addFamily_of_found {t : Template} (free : hindrance? t r s = none) (own : t.isExtension = false) {h : Handle}
    (found : s.family? t.foreignName = some h) :
    r.addFamily t s = (.ok (), r.withFamily t s.nextCell h,
      (s.holding h (if t.isScalar then [s.nextCell] else [])).releaseAll (r.displacedBy t)) := by
  rw [hindrance?, Option.or_eq_none_iff] at free
  have read : ((s.hold h).2.retain s.nextCell).read s.nextCell = h := by
    apply Store.read_of_binding?
    have bound := Store.binding?_holding h [s.nextCell] s s.nextCell
    rwa [if_pos rfl] at bound
  have first : (s.hold h).1 = s.nextCell := by rw [Store.hold_eq]
  unfold addFamily
  rw [free.1]
  simp only [own, Bool.false_eq_true, if_false, found, first]
  unfold withFamily displacedBy Store.holding
  cases scalar : t.isScalar with
  | false =>
    simp only [Bool.false_eq_true, if_false, List.nil_append]
    rfl
  | true =>
    simp only [if_true, record, recordFamily, read]
    rw [Store.releaseAll, Store.releaseAll, Store.releaseAll, List.foldl_append]
    rfl

/-- What registering a template comes to. -/
inductive Adds (t : Template) (r : Registry) (s : Store) : Except RegistrationError Unit × Registry × Store → Prop
  | hindered {cause : Unavailability} (found : hindrance? t r s = some cause) :
      Adds t r s (.error (.unavailable t.family cause), r, s)
  | extension (free : hindrance? t r s = none) (extension : t.isExtension = true) : Adds t r s (.ok (), r, s)
  | made {h : Handle} (free : hindrance? t r s = none) (own : t.isExtension = false)
      (found : s.family? t.foreignName = some h) :
      Adds t r s (.ok (), r.withFamily t s.nextCell h,
        (s.holding h (if t.isScalar then [s.nextCell] else [])).releaseAll (r.displacedBy t))

/-- **The ways in which registering a template can end.** -/
theorem adds (t : Template) (r : Registry) (s : Store) : Adds t r s (r.addFamily t s) := by
  cases free : hindrance? t r s with
  | some cause =>
    rw [addFamily_of_hindrance free]
    exact .hindered free
  | none =>
    cases own : t.isExtension with
    | true =>
      rw [addFamily_of_extension free own]
      exact .extension free own
    | false =>
      obtain ⟨h, found⟩ := Option.isSome_iff_exists.mp
        ((hindrance?_eq_none.mp free).2.2.resolve_left (by simp [own]))
      rw [addFamily_of_found free own found]
      exact .made free own found

/-! ### Faithful registries -/

/-- The cells of the registry are bound to what its families and types stand for in the store. The index leads from
there to the types, and the order lists them, each after its parameters. -/
structure Faithful (r : Registry) (s : Store) : Prop where
  interned : s.Interned
  families : ∀ {name f}, r.families.get? name = some f → Catalog.own? name = some f.template ∧
    ∃ h, s.family? f.template.foreignName = some h ∧ s.binding? f.constructor = some h
  types : ∀ {e c}, r.cell? e = some c → ∃ h, s.denotation? e = some h ∧ s.binding? c = some h
  scalars : ∀ {name f}, r.families.get? name = some f → f.template.isScalar = true →
    r.isRegistered (.concrete name) = true
  listed : ∀ {e}, r.isRegistered e = true ↔ e ∈ r.order
  indexed : ∀ {e h}, r.hostType? h = some e ↔ r.isRegistered e = true ∧ s.denotation? e = some h
  parameters : ∀ {before e after}, r.order = before ++ e :: after → e ∉ before → ∀ p ∈ e.params, p ∈ before

theorem faithful_empty (interned : s.Interned) : empty.Faithful s where
  interned := interned
  families found := by cases found
  types found := by cases found
  scalars found := by cases found
  listed := by simp [isRegistered, cell?, empty]
  indexed := by simp [isRegistered, cell?, hostType?, empty]
  parameters split := by simp [empty] at split

namespace Faithful

/-- A registry stays faithful while the types are kept and its own cells stay bound. -/
theorem mono (faithful : r.Faithful s) {t : Store} (keeps : s.KeepsTypes t)
    (bound : ∀ c ∈ r.cells, ∀ h, s.binding? c = some h → t.binding? c = some h) : r.Faithful t where
  interned := keeps.interned faithful.interned
  families found := by
    obtain ⟨own, h, provided, held⟩ := faithful.families found
    exact ⟨own, h, keeps.family provided, bound _ (mem_cells_of_family found) h held⟩
  types found := by
    obtain ⟨h, stands, held⟩ := faithful.types found
    exact ⟨h, keeps.denotation? stands, bound _ (mem_cells_of_type found) h held⟩
  scalars := faithful.scalars
  listed := faithful.listed
  indexed {e h} := by
    rw [faithful.indexed]
    refine and_congr_right fun registered => ⟨fun stands => keeps.denotation? stands, fun stands => ?_⟩
    -- it stood for a handle before, and still does
    obtain ⟨c, found⟩ := isRegistered_iff.mp registered
    obtain ⟨k, stood, _⟩ := faithful.types found
    rw [← Option.some.inj ((keeps.denotation? stood).symm.trans stands)]
    exact stood
  parameters := faithful.parameters

/-- Looking up a registered type gives what it stands for. -/
theorem lookup_eq_some (faithful : r.Faithful s) {e : TypeExpr} {h : Handle} :
    r.lookup s e = some h ↔ r.isRegistered e = true ∧ s.denotation? e = some h := by
  rw [lookup, Option.map_eq_some_iff, isRegistered_iff]
  constructor
  · rintro ⟨c, found, read⟩
    obtain ⟨k, stands, held⟩ := faithful.types found
    rw [Store.read_of_binding? held] at read
    exact ⟨⟨c, found⟩, read ▸ stands⟩
  · rintro ⟨⟨c, found⟩, stands⟩
    obtain ⟨k, stands', held⟩ := faithful.types found
    rw [stands] at stands'
    obtain rfl := Option.some.inj stands'
    exact ⟨c, found, Store.read_of_binding? held⟩

/-- One more type, the parameters of which are registered. -/
theorem withType (faithful : r.Faithful s) {e : TypeExpr} {c : CellId} {h : Handle} (stands : s.denotation? e = some h)
    (held : s.binding? c = some h) (parameters : ∀ p ∈ e.params, r.isRegistered p = true) :
    (r.withType e c h).Faithful s where
  interned := faithful.interned
  families := faithful.families
  types {f d} found := by
    rw [cell?_withType] at found
    split at found
    · next same =>
      obtain rfl := Option.some.inj found
      exact ⟨h, same ▸ stands, held⟩
    · exact faithful.types found
  scalars found scalar := (isRegistered_withType ..).mpr (.inr (faithful.scalars found scalar))
  listed {f} := by
    rw [isRegistered_withType, order_withType, faithful.listed]
    simp [or_comm]
  indexed {f k} := by
    rw [hostType?_withType, isRegistered_withType]
    split
    · next same =>
      subst same
      refine ⟨fun new => ?_, fun both => ?_⟩
      · obtain rfl := Option.some.inj new
        exact ⟨.inl rfl, stands⟩
      · rw [Store.denotation?_injective faithful.interned stands both.2]
    · next apart =>
      rw [faithful.indexed]
      refine and_congr_left fun stands' => (or_iff_right ?_).symm
      rintro rfl
      exact apart (Option.some.inj (stands'.symm.trans stands))
  parameters {before f after} split new := by
    rw [order_withType] at split
    rcases List.eq_nil_or_concat after with rfl | ⟨after, last, rfl⟩
    · obtain ⟨rfl, same⟩ := List.append_inj' split rfl
      obtain rfl := List.head_eq_of_cons_eq same
      exact fun p hp => faithful.listed.mp (parameters p hp)
    · rw [List.concat_eq_append, ← List.cons_append, ← List.append_assoc] at split
      exact faithful.parameters (List.append_inj' split rfl).1 new

/-- One more family. -/
theorem withFamily (faithful : r.Faithful s) {t : Template} (listed : t ∈ Catalog.templates)
    (own : t.isExtension = false) {c : CellId} {h : Handle} (found : s.family? t.foreignName = some h)
    (held : s.binding? c = some h) : (r.withFamily t c h).Faithful s := by
  have known := Catalog.own?_of_mem listed own
  -- with the single type, before the family itself is recorded
  have base : (if t.isScalar then r.withType (.concrete t.family) c h else r).Faithful s := by
    split
    · have stands : s.denotation? (.concrete t.family) = some h :=
        Store.denotation?_eq_some.mpr ⟨t, h, known, found, by simp [TypeExpr.concrete]⟩
      exact faithful.withType stands held fun p hp => by cases hp
    · exact faithful
  have scalar : t.isScalar = true →
      (if t.isScalar then r.withType (.concrete t.family) c h else r).isRegistered (.concrete t.family) = true := by
    intro scalar
    rw [if_pos scalar]
    exact (isRegistered_withType ..).mpr (.inl rfl)
  unfold Registry.withFamily
  generalize (if t.isScalar then r.withType (.concrete t.family) c h else r) = r' at base scalar
  exact
    { interned := base.interned
      families := fun {name f} there => by
        rw [Keyed.get?_insert] at there
        split at there
        · next same =>
          obtain rfl := Option.some.inj there
          exact ⟨same ▸ known, h, found, held⟩
        · exact base.families there
      types := base.types
      scalars := fun {name f} there single => by
        rw [Keyed.get?_insert] at there
        split at there
        · next same =>
          obtain rfl := Option.some.inj there
          exact same ▸ scalar single
        · exact base.scalars there single
      listed := base.listed
      indexed := base.indexed
      parameters := base.parameters }

end Faithful

/-- The cells of a registry that are not lost. -/
def Held (r : Registry) (s : Store) : Prop := ∀ c ∈ r.cells, ∃ cell, s.cell? c = some cell

/-- **Registering a family leaves a faithful registry**, as long as its cells are held. -/
theorem Faithful.addFamily (faithful : r.Faithful s) {t : Template} (listed : t ∈ Catalog.templates) {r' : Registry}
    {s' : Store} (added : r.addFamily t s = (.ok (), r', s')) (held : r'.Held s' ∨ r.displacedBy t = []) :
    r'.Faithful s' := by
  have ways := adds t r s
  rw [added] at ways
  cases ways with
  | extension => exact faithful
  | @made h free own found =>
    generalize (if t.isScalar then [s.nextCell] else []) = shares at held ⊢
    have keeps := Store.keepsTypes_holding h shares s
    -- the new cell is none of those that the registry has
    have before : r.Faithful (s.holding h shares) := by
      refine faithful.mono keeps fun c hc k bound => ?_
      rw [Store.binding?_holding, if_neg, bound]
      rintro rfl
      simp [Store.binding?, Store.cell?_nextCell] at bound
    have with' := before.withFamily listed own (keeps.family found)
      (c := s.nextCell) (by rw [Store.binding?_holding, if_pos rfl])
    refine with'.mono (Store.keepsTypes_releaseAll _ _) fun c hc k bound => ?_
    rcases held with held | none
    · obtain ⟨cell, there⟩ := held c hc
      rw [Store.binding?_releaseAll_of_left _ there, bound]
    · rw [none]
      exact bound

/-! ### Registering a type -/

theorem parameters_cases (faithful : r.Faithful s) (e : TypeExpr) (params : List TypeExpr) :
    ((∀ p ∈ params, r.isRegistered p = true) ∧
      ∃ hs, r.parameters s e params = .ok hs ∧ s.denotations? params = some hs) ∨
    ∃ p, params.find? (!r.isRegistered ·) = some p ∧
      r.parameters s e params = .error (.unregisteredParameter e.render p) := by
  induction params with
  | nil => exact .inl ⟨fun _ hp => (by cases hp), [], rfl, rfl⟩
  | cons p ps ih =>
    unfold Registry.parameters
    cases found : r.lookup s p with
    | none =>
      have missing : r.isRegistered p = false := by simpa [lookup, isRegistered] using found
      exact .inr ⟨p, by simp [missing], rfl⟩
    | some h =>
      obtain ⟨registered, stands⟩ := faithful.lookup_eq_some.mp found
      rcases ih with ⟨all, hs, given, stand⟩ | ⟨q, first, refused⟩
      · refine .inl ⟨?_, h :: hs, by simp only [given], ?_⟩
        · rintro q (_ | ⟨_, hq⟩)
          · exact registered
          · exact all q hq
        · exact Store.denotations?_cons_eq_some.mpr ⟨h, hs, stands, stand, rfl⟩
      · exact .inr ⟨q, by simpa [registered] using first, by simp only [refused]⟩

/-- What registering a type in a faithful registry comes to. -/
inductive Instantiates (e : TypeExpr) (r : Registry) (s : Store) :
    Except RegistrationError Handle × Registry × Store → Prop
  /-- The type is registered already. -/
  | known {h : Handle} (found : r.lookup s e = some h) : Instantiates e r s (.ok h, r, s)
  | unknownFamily (new : r.isRegistered e = false) (absent : r.families.get? e.name = none) :
      Instantiates e r s (.error (.unknownFamily e.name), r, s)
  | arityMismatch {f : RegisteredFamily} (new : r.isRegistered e = false) (there : r.families.get? e.name = some f)
      (apart : e.params.length ≠ f.template.arity) :
      Instantiates e r s (.error (.arityMismatch e.name f.template.arity e.params.length), r, s)
  | unregisteredParameter {f : RegisteredFamily} {p : TypeExpr} (new : r.isRegistered e = false)
      (there : r.families.get? e.name = some f) (arity : e.params.length = f.template.arity)
      (first : e.params.find? (!r.isRegistered ·) = some p) :
      Instantiates e r s (.error (.unregisteredParameter e.render p), r, s)
  /-- A fault was pending. -/
  | faulted {b : BridgeError} {s' : Store} (new : r.isRegistered e = false) (pending : s.fault ≠ none)
      (keeps : s.KeepsTypes s') (cells : s'.cells = s.cells) : Instantiates e r s (.error (.bridge b), r, s')
  | made {f : RegisteredFamily} {h : Handle} {s' : Store} (new : r.isRegistered e = false)
      (there : r.families.get? e.name = some f) (arity : e.params.length = f.template.arity)
      (registered : ∀ p ∈ e.params, r.isRegistered p = true) (keeps : s.KeepsTypes s') (cells : s'.cells = s.cells)
      (cleared : s'.fault = none) (halted : s.fault = none → s'.halted = s.halted)
      (stands : s'.denotation? e = some h) :
      Instantiates e r s (.ok h, r.withType e s'.nextCell h, s'.holding h [])

/-- An instance that is not registered has parameters: without them it would be registered along with its family. -/
theorem Faithful.params_ne_nil (faithful : r.Faithful s) {e : TypeExpr} {f : RegisteredFamily}
    (there : r.families.get? e.name = some f) (arity : e.params.length = f.template.arity)
    (new : r.isRegistered e = false) : e.params ≠ [] := by
  intro none
  have base := (Catalog.own?_eq_some (faithful.families there).1).2.1
  rw [none] at arity
  simp only [Template.isExtension, Option.isSome_eq_false_iff] at base
  have scalar : f.template.isScalar = true := by simp [Template.isScalar, ← arity, base]
  have single : e = .concrete e.name := by
    obtain ⟨name, params⟩ := e
    exact congrArg (TypeExpr.mk name) none
  rw [single, faithful.scalars there scalar] at new
  cases new

/-- A registered family is applied to what the parameters of a type stand for. -/
theorem Faithful.crossing_applyFamily (faithful : r.Faithful s) {e : TypeExpr} {f : RegisteredFamily}
    (there : r.families.get? e.name = some f) (some : e.params ≠ []) {hs : List Handle}
    (stand : s.denotations? e.params = Option.some hs) {outcome : Except BridgeError Handle} {s' : Store}
    (crossed : s.crossing (Store.applyFamily (s.read f.constructor) hs) = (outcome, s')) :
    s.KeepsTypes s' ∧ s'.cells = s.cells ∧ s'.fault = none ∧
      (s.fault = none → (∃ h, outcome = .ok h) ∧ s'.halted = s.halted) ∧
      ∀ h, outcome = .ok h → s'.denotation? e = Option.some h := by
  obtain ⟨own, head, provided, bound⟩ := faithful.families there
  have someHandles : hs ≠ [] := by
    rintro rfl
    obtain ⟨p, ps, split⟩ := List.exists_cons_of_ne_nil some
    rw [split] at stand
    obtain ⟨_, _, _, _, impossible⟩ := Store.denotations?_cons_eq_some.mp stand
    cases impossible
  rw [Store.read_of_binding? bound] at crossed
  obtain ⟨keeps, cells, _, cleared, clean, applied⟩ :=
    Store.crossing_applyFamily (faithful.interned.isFamily provided) someHandles
  rw [crossed] at keeps cells cleared clean applied
  refine ⟨keeps, cells, cleared, clean, fun h ok => ?_⟩
  refine Store.denotation?_eq_some.mpr ⟨f.template, head, own, keeps.family provided, ?_⟩
  rw [if_neg some]
  exact ⟨hs, keeps.denotations? stand, applied h ok⟩

/-- **The ways in which registering a type can end.** -/
theorem Faithful.instantiates (faithful : r.Faithful s) (e : TypeExpr) :
    Instantiates e r s (r.instantiate e s) := by
  have unregistered (new : r.lookup s e = none) : r.cell? e = none := by simpa [lookup] using new
  have absent (new : r.lookup s e = none) : r.isRegistered e = false := by
    rw [isRegistered, unregistered new]
    rfl
  have granted {hs : List Handle} (given : r.parameters s e e.params = .ok hs) :
      (∀ p ∈ e.params, r.isRegistered p = true) ∧ s.denotations? e.params = some hs := by
    rcases parameters_cases faithful e e.params with ⟨registered, hs, given', stand⟩ | ⟨p, _, refused⟩
    · obtain rfl := Except.ok.inj (given'.symm.trans given)
      exact ⟨registered, stand⟩
    · rw [refused] at given
      cases given
  have ends := r.ends_instantiate e s
  generalize r.instantiate e s = result at ends ⊢
  cases ends with
  | known found => exact .known found
  | unknownFamily new there => exact .unknownFamily (absent new) there
  | arityMismatch new there apart => exact .arityMismatch (absent new) there apart
  | refused new there arity refused =>
    rcases parameters_cases faithful e e.params with ⟨_, _, given, _⟩ | ⟨p, first, refused'⟩
    · rw [given] at refused
      cases refused
    · obtain rfl := Except.error.inj (refused.symm.trans refused')
      exact .unregisteredParameter (absent new) there arity first
  | faulted new there arity given crossed =>
    have some := faithful.params_ne_nil there arity (absent new)
    obtain ⟨keeps, cells, _, clean, _⟩ := faithful.crossing_applyFamily there some (granted given).2 crossed
    refine .faulted (absent new) (fun none => ?_) keeps cells
    obtain ⟨⟨h, ok⟩, _⟩ := clean none
    cases ok
  | @made f hs h s' new there arity given crossed =>
    have some := faithful.params_ne_nil there arity (absent new)
    obtain ⟨registered, stand⟩ := granted given
    obtain ⟨keeps, cells, cleared, clean, stands⟩ := faithful.crossing_applyFamily there some stand crossed
    have made := Instantiates.made (absent new) there arity registered keeps cells cleared (fun none => (clean none).2)
      (stands h rfl)
    have first : (s'.hold h).1 = s'.nextCell := by rw [Store.hold_eq]
    have read := Store.read_of_binding? (Store.binding?_hold_self s' h)
    rw [first] at read
    simp only [first, record, unregistered new, read]
    exact made

/-- **Registering a type leaves a faithful registry**, and gives what the type stands for. -/
theorem Faithful.instantiate (faithful : r.Faithful s) (e : TypeExpr) :
    (r.instantiate e s).2.1.Faithful (r.instantiate e s).2.2 ∧
    ∀ h, (r.instantiate e s).1 = .ok h → (r.instantiate e s).2.2.denotation? e = some h := by
  have ways := faithful.instantiates e
  generalize r.instantiate e s = result at ways ⊢
  cases ways with
  | known found =>
    exact ⟨faithful, fun made ok => Except.ok.inj ok ▸ (faithful.lookup_eq_some.mp found).2⟩
  | unknownFamily | arityMismatch | unregisteredParameter => exact ⟨faithful, fun made ok => by cases ok⟩
  | faulted new pending keeps cells =>
    exact ⟨faithful.mono keeps fun c _ h bound => (Store.binding?_congr cells c).trans bound,
      fun made ok => by cases ok⟩
  | @made f h s' new there arity registered keeps cells cleared halted stands =>
    have keeps' := Store.keepsTypes_holding h [] s'
    have before : r.Faithful (s'.holding h []) := by
      refine faithful.mono (keeps.trans keeps') fun c _ k bound => ?_
      rw [← Store.binding?_congr cells c] at bound
      rw [Store.binding?_holding, if_neg, bound]
      rintro rfl
      simp [Store.binding?, Store.cell?_nextCell] at bound
    have stands' := keeps'.denotation? stands
    exact ⟨before.withType stands' (by rw [Store.binding?_holding, if_pos rfl]) registered,
      fun made ok => Except.ok.inj ok ▸ stands'⟩

end Registry

end ForeignBridge
