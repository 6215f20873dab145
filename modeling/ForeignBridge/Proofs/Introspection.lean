import ForeignBridge.Proofs.Activity
import ForeignBridge.Proofs.Paths
import ForeignBridge.Proofs.RegistryRuns

/-! # The types of values

The type of a native value is told by a table of host names, and that of a foreign value by the store, which knows
foreign names, and by the index of the registry. Both go through the same template of the catalog
(`exists_single`), and an expression without parameters stands for the family of its template, so the two tell the same
whether or not the family is there and registered (`Faithful.hostType?_single`).

From the time when it is made, an object stays what it is until its slot is reclaimed (`Acts.object?`), and a type that
is registered stays registered (`Later.isRegistered`) and goes on standing for its handle. So what is told of a foreign
value that was made at one moment holds at every later one (`Run.introspection`). -/

namespace ForeignBridge

namespace Value

variable {ρ : Type}

/-- The foreign data of a single native value. -/
def scalar? : Value ρ → Option (Datum ρ)
  | .bool b => some (.bool b)
  | .int i => some (.int i)
  | .float x => some (.float x)
  | .str s => some (.str s)
  | _ => none

theorem references_scalar {v : Value ρ} {d : Datum ρ} (single : v.scalar? = some d) : d.references = [] := by
  cases v <;> cases single <;> rfl

end Value

/-! ### Objects stay what they are -/

namespace Store

variable {s t : Store} {o p : Multiset CellId} {h : Handle}

theorem Change.issued (change : s.Change o t p) (issued : s.Issued h) : t.Issued h := by
  refine issued.mono ?_
  cases change with
  | log | fault | newCell | retain => exact le_rfl
  | root o k => exact (lastId_root s k).ge
  | unroot o k => exact (lastId_unroot s k).ge
  | setMember o parent name k => exact (lastId_setMember s parent name k).ge
  | push o object => exact Nat.le_succ _
  | hold o k =>
    rw [hold_eq]
    exact (lastId_root s k).ge
  | bind t o c k bound =>
    obtain ⟨_, rfl⟩ := bind_eq_ok.mp bound
    exact (lastId_root s k).ge
  | release o c => exact (lastId_release s c).ge

/-- A change leaves what was put into a slot, unless it is a namespace. -/
theorem Change.object? (change : s.Change o t p) (issued : s.Issued h) (plain : s.isModule h = false) :
    t.object? h = s.object? h := by
  cases change with
  | log | fault | newCell | retain => rfl
  | root o k => exact object?_root s k h
  | unroot o k => exact object?_unroot s k h
  | setMember o parent name k =>
    rw [object?_setMember]
    split
    · next same =>
      subst same
      unfold isModule at plain
      cases found : s.object? h with
      | none => rfl
      | some object => cases object <;> simp_all
    · rfl
  | push o object =>
    have apart : h ≠ s.nextHandle := fun same => not_issued_nextHandle s (same ▸ issued)
    exact (object?_pushSlot s object h).trans (if_neg apart)
  | hold o k => exact object?_hold s k h
  | bind t o c k bound =>
    obtain ⟨_, rfl⟩ := bind_eq_ok.mp bound
    exact object?_root s k h
  | release o c => exact object?_release s c h

theorem object?_sweep (s : Store) (h : Handle) : s.sweep.object? h = s.object? h ∨ s.sweep.object? h = none := by
  by_cases reached : s.Reached h
  · exact .inl (object?_sweep_of_reached reached)
  · exact .inr (by rw [object?, slot?_sweep_of_not_reached reached, Option.map_none])

/-- **An object stays what it is until its slot is reclaimed**, unless it is a namespace. -/
theorem Acts.object? (acts : s.Acts o t p) {object : Object} (found : s.object? h = some object)
    (plain : s.isModule h = false) (live : t.isLive h = true) : t.object? h = some object := by
  have noModule : ∀ {w : Store}, w.object? h = some object ∨ w.object? h = none → w.isModule h = false := by
    rintro w (there | gone)
    · rw [← plain, isModule, isModule, there, found]
    · rw [isModule, gone]
  -- once the slot is empty it stays so, since it was handed out
  have stays : t.Issued h ∧ (t.object? h = some object ∨ t.object? h = none) := by
    clear live
    induction acts with
    | refl => exact ⟨issued_of_object? found, .inl found⟩
    | change _ change ih =>
      obtain ⟨issued, still⟩ := ih
      rw [change.object? issued (noModule still)]
      exact ⟨change.issued issued, still⟩
    | @sweep w q _ ih =>
      obtain ⟨issued, still⟩ := ih
      refine ⟨issued.mono (lastId_sweep w).ge, ?_⟩
      rcases object?_sweep w h with same | gone
      · rwa [same]
      · exact .inr gone
  obtain ⟨slot, there⟩ := isLive_iff.mp live
  rcases stays.2 with still | gone
  · exact still
  · simp [Store.object?, there] at gone

end Store

namespace Registry

variable {r r' : Registry} {s s' : Store} {o o' : Multiset CellId} {t : TypeExpr} {h : Handle}

/-! ### Single types -/

/-- The host type of the family of a template without parameters, as far as there is such a family. -/
theorem Faithful.hostType?_single (faithful : r.Faithful s) {u : Template} (own : Catalog.own? u.family = some u) :
    r.hostType? ((s.family? u.foreignName).getD Handle.null) =
      (some (.concrete u.family)).filter r.isRegistered := by
  have stands : ∀ h, s.denotation? (.concrete u.family) = some h ↔ s.family? u.foreignName = some h := fun h => by
    rw [Store.denotation?_eq_some]
    constructor
    · rintro ⟨v, head, own', provided, same⟩
      obtain rfl := Option.some.inj (own.symm.trans own')
      obtain rfl : head = h := by simpa [TypeExpr.concrete] using same
      exact provided
    · exact fun provided => ⟨u, h, own, provided, by simp [TypeExpr.concrete]⟩
  refine Option.ext fun t => ?_
  rw [faithful.indexed, Option.filter_eq_some_iff, Option.some.injEq]
  cases provided : s.family? u.foreignName with
  | some h =>
    have single := (stands h).mpr provided
    constructor
    · rintro ⟨registered, denotes⟩
      obtain rfl := Store.denotation?_injective faithful.interned denotes single
      exact ⟨rfl, registered⟩
    · rintro ⟨rfl, registered⟩
      exact ⟨registered, single⟩
  | none =>
    constructor
    · rintro ⟨_, denotes⟩
      exact absurd rfl (Store.denotation?_ne_null faithful.interned denotes)
    · rintro ⟨rfl, registered⟩
      obtain ⟨h, found⟩ := lookup_of_registered s registered
      have provided' := (stands h).mp (faithful.lookup_eq_some.mp found).2
      rw [provided] at provided'
      cases provided'

/-- A single native value and its foreign data belong to one template of the catalog. -/
theorem exists_single {v : Value CellId} {d : Datum CellId} (single : v.scalar? = some d) :
    ∃ u, Catalog.own? u.family = some u ∧ nativeName? v = some u.family ∧
      ∀ (s : Store) (h : Handle), s.object? h = some (.value d) →
        s.typeOf h = (s.family? u.foreignName).getD Handle.null := by
  cases v <;> cases single
  · exact ⟨.scalar "Bool" "bool", by decide +kernel, rfl, fun s h found => by rw [Store.typeOf, found]; rfl⟩
  · exact ⟨.scalar "Int" "long", by decide +kernel, rfl, fun s h found => by rw [Store.typeOf, found]; rfl⟩
  · exact ⟨.scalar "Float" "double", by decide +kernel, rfl, fun s h found => by rw [Store.typeOf, found]; rfl⟩
  · exact ⟨.scalar "String" "std::string", by decide +kernel, rfl, fun s h found => by rw [Store.typeOf, found]; rfl⟩

/-! ### What is told of values -/

theorem toOption_typeOfValue (r : Registry) (s : Store) (v : Value CellId) : (r.typeOfValue s v).toOption =
    (r.nativeType? v).or (v.object?.bind fun c => r.hostType? (s.typeOf (s.read c))) := by
  unfold typeOfValue
  split
  · next t native => rw [native]; rfl
  · next native =>
    rw [native, Option.none_or]
    split
    · next t found => rw [found]; rfl
    · next none => rw [none]; rfl

theorem typeOfValue_eq_ok {v : Value CellId} :
    r.typeOfValue s v = .ok t ↔ (r.typeOfValue s v).toOption = some t := by
  cases r.typeOfValue s v <;> simp [Except.toOption]

/-- The type of a foreign value is the host type of its foreign type. -/
theorem toOption_typeOfValue_foreign (r : Registry) (s : Store) (c : CellId) :
    (r.typeOfValue s (.foreign c)).toOption = r.hostType? (s.typeOf (s.read c)) := by
  rw [toOption_typeOfValue]
  rfl

/-- The type of a single native value is that of its kind. -/
theorem toOption_typeOfValue_single (r : Registry) (s : Store) {v : Value CellId} {d : Datum CellId}
    (single : v.scalar? = some d) : (r.typeOfValue s v).toOption = r.nativeType? v := by
  rw [toOption_typeOfValue]
  cases v <;> cases single <;> simp [Value.object?]

/-- **What is told of a value is registered.** -/
theorem Faithful.isRegistered_of_typeOfValue (faithful : r.Faithful s) {v : Value CellId}
    (told : r.typeOfValue s v = .ok t) : r.isRegistered t = true := by
  rw [typeOfValue_eq_ok, toOption_typeOfValue, Option.or_eq_some_iff] at told
  rcases told with native | ⟨_, foreign⟩
  · exact (Option.filter_eq_some_iff.mp native).2
  · obtain ⟨c, _, found⟩ := Option.bind_eq_some_iff.mp foreign
    exact (faithful.indexed.mp found).1

/-- **A foreign value with the data of a native one has its type.** -/
theorem Faithful.typeOfValue_single (faithful : r.Faithful s) {v : Value CellId} {d : Datum CellId}
    (single : v.scalar? = some d) {c : CellId} (found : s.object? (s.read c) = some (.value d)) :
    (r.typeOfValue s (.foreign c)).toOption = (r.typeOfValue s v).toOption := by
  obtain ⟨u, own, name, type⟩ := exists_single single
  rw [toOption_typeOfValue_foreign, toOption_typeOfValue_single r s single, type s _ found,
    faithful.hostType?_single own, nativeType?, name]
  rfl

/-- **An object of a registered type has this type.** -/
theorem Faithful.typeOfValue_structured (faithful : r.Faithful s) (registered : r.isRegistered t = true)
    {type : Handle} (stands : s.denotation? t = some type) {fields : Keyed Handle} {c : CellId}
    (found : s.object? (s.read c) = some (.structured type fields)) : r.typeOfValue s (.foreign c) = .ok t := by
  have head : s.typeOf (s.read c) = type := by rw [Store.typeOf, found]
  rw [typeOfValue_eq_ok, toOption_typeOfValue_foreign, head]
  exact faithful.indexed.mpr ⟨registered, stands⟩

/-! ### Later moments -/

/-- A run goes on from a registry and its store by further calls and any activity between them. -/
inductive Later (r : Registry) (s : Store) (o : Multiset CellId) : Registry → Store → Multiset CellId → Prop where
  | now : Later r s o r s o
  | addFamily {r' : Registry} {s' : Store} {o' : Multiset CellId} (later : Later r s o r' s' o') (t : Template)
      (listed : t ∈ Catalog.templates) :
      Later r s o (r'.addFamily t s').2.1 (r'.addFamily t s').2.2 o'
  | instantiate {r' : Registry} {s' : Store} {o' : Multiset CellId} (later : Later r s o r' s' o') (t : TypeExpr) :
      Later r s o (r'.instantiate t s').2.1 (r'.instantiate t s').2.2 o'
  | other {r' : Registry} {s' s'' : Store} {o' o'' : Multiset CellId} (later : Later r s o r' s' o')
      (acts : s'.Acts (r'.cells + o') s'' (r'.cells + o'')) : Later r s o r' s'' o''

theorem isRegistered_addFamily (u : Template) (there : r.isRegistered t = true) :
    (r.addFamily u s).2.1.isRegistered t = true := by
  have ways := adds u r s
  generalize r.addFamily u s = result at ways ⊢
  cases ways with
  | hindered | extension => exact there
  | made => exact (isRegistered_withFamily ..).mpr (.inr there)

theorem Faithful.isRegistered_instantiate (faithful : r.Faithful s) (u : TypeExpr) (there : r.isRegistered t = true) :
    (r.instantiate u s).2.1.isRegistered t = true := by
  have ways := faithful.instantiates u
  generalize r.instantiate u s = result at ways ⊢
  cases ways with
  | known | unknownFamily | arityMismatch | unregisteredParameter | faulted => exact there
  | made => exact (isRegistered_withType ..).mpr (.inr there)

namespace Later

theorem run (later : Later r s o r' s' o') (run : Run r s o) : Run r' s' o' := by
  induction later with
  | now => exact run
  | addFamily _ t listed ih => exact ih.addFamily t listed
  | instantiate _ t ih => exact ih.instantiate t
  | other _ acts ih => exact ih.other acts

/-- The calls of a registry are activity too. -/
theorem acts (later : Later r s o r' s' o') (run : Run r s o) : s.Acts (r.cells + o) s' (r'.cells + o') := by
  induction later with
  | now => exact .refl
  | addFamily before t _ ih => exact ih.trans ((before.run run).kept.acts_addFamily t)
  | instantiate before t ih => exact ih.trans ((before.run run).kept.acts_instantiate t)
  | other _ acts ih => exact ih.trans acts

/-- What is registered stays registered. -/
theorem isRegistered (later : Later r s o r' s' o') (run : Run r s o) (there : r.isRegistered t = true) :
    r'.isRegistered t = true := by
  induction later with
  | now => exact there
  | addFamily _ u _ ih => exact isRegistered_addFamily u ih
  | instantiate before u ih => exact (before.run run).kept.faithful.isRegistered_instantiate u ih
  | other _ _ ih => exact ih

end Later

/-! ### Introspection -/

/-- At every later moment this is told of each foreign value that refers to the handle, unless its slot was
reclaimed. -/
def ToldLater (r : Registry) (s : Store) (o : Multiset CellId) (h : Handle)
    (told : Registry → Store → Option TypeExpr) : Prop :=
  ∀ r' s' o', Later r s o r' s' o' → s'.isLive h = true → ∀ c, s'.read c = h →
    (r'.typeOfValue s' (.foreign c)).toOption = told r' s'

/-- The cell refers to the handle and keeps its slot: as long as the cell is held, operations do not reclaim the slot,
unless a root is given back directly. -/
def Secured (r : Registry) (s : Store) (o : Multiset CellId) (c : CellId) (h : Handle) : Prop :=
  s.read c = h ∧ s.isLive h = true ∧
    ∀ R L, (Ledger.mk s (r.cells + o) R 0).Sound → Ledger.Evolves ⟨s, r.cells + o, R, 0⟩ L → L.unrooted = 0 →
      c ∈ L.outside → L.store.read c = h ∧ L.store.isLive h = true

theorem exists_holdObject (r : Registry) (o : Multiset CellId) (live : s.isLive h = true) :
    ∃ c s', Bridge.holdObject h s = (.foreign c, s') ∧ Later r s o r s' (c ::ₘ o) ∧
      Secured r s' (c ::ₘ o) c h := by
  have bound := Store.binding?_hold_self s h
  have live' : (s.hold h).2.isLive h = true := by
    rw [Store.hold_eq]
    exact (Store.isLive_updateSlot s h h _).trans live
  refine ⟨(s.hold h).1, (s.hold h).2, rfl, .other .now ?_, Store.read_of_binding? bound, live',
    fun R L sound evolves none held => ?_⟩
  · rw [Multiset.add_cons]
    exact (Store.Change.hold _ h).acts
  · have sound' := evolves.sound sound
    obtain ⟨cell, there⟩ := sound'.holds_iff.mp (Multiset.mem_add.mpr (.inl held))
    exact ⟨Store.read_of_binding? (evolves.binding bound there), evolves.isLive_of_held sound none bound live' there⟩

/-- A new object that is no namespace stays what it is. -/
theorem Later.object? (later : Later r s o r' s' o') (run : Run r s o) {object : Object}
    (found : s.object? h = some object) (plain : ∀ own members, object ≠ .module own members)
    (live : s'.isLive h = true) : s'.object? h = some object := by
  refine (later.acts run).object? found ?_ live
  rw [Store.isModule, found]
  cases object with
  | module own members => exact absurd rfl (plain own members)
  | _ => rfl

theorem Run.construct (run : Run r s o) {v : Value CellId} {d : Datum CellId} (single : v.scalar? = some d) :
    Run r (s.construct d).2 o :=
  run.other (Store.acts_construct fun c hc => by simp [Value.references_scalar single] at hc)

/-- **The type of a value does not depend on the side that holds it.** What is told of a value is registered. A foreign
value that was made from the data of a single native value has its type, or neither of them has one. An object that was
made of the foreign type of a registered type has this type. Both hold at every later moment, whatever is registered and
whatever else goes on, as long as the slot is there; and a promoted value keeps its slot while it is held. -/
theorem Run.introspection (run : Run r s o) :
    (∀ v t, r.typeOfValue s v = .ok t → r.isRegistered t = true) ∧
    (∀ v d, v.scalar? = some d →
      ToldLater r (s.construct d).2 o (s.construct d).1 fun r' s' => (r'.typeOfValue s' v).toOption) ∧
    (∀ t type fields, r.lookup s t = some type →
      (∀ field ∈ fields, ∀ c ∈ Datum.references field.2, c ∈ r.cells + o) →
      ToldLater r (s.create type fields).2 o (s.create type fields).1 fun _ _ => some t) ∧
    ∀ h, s.isLive h = true → ∃ c s', Bridge.holdObject h s = (.foreign c, s') ∧ Later r s o r s' (c ::ₘ o) ∧
      Secured r s' (c ::ₘ o) c h := by
  refine ⟨fun v t => run.kept.faithful.isRegistered_of_typeOfValue, fun v d single r' s' o' later live c read => ?_,
    fun t type fields found held r' s' o' later live c read => ?_, fun h => exists_holdObject r o⟩
  · have made := run.construct single
    have object := later.object? made (Ledger.object?_allocate_self s (.value d)) (by simp) live
    exact (later.run made).kept.faithful.typeOfValue_single single (read ▸ object)
  · have made : Run r (s.create type fields).2 o := run.other (Store.acts_create type held)
    obtain ⟨there, stands⟩ := run.kept.faithful.lookup_eq_some.mp found
    have keeps := ((Store.acts_create type held).trans (later.acts made)).keepsTypes
    have object := later.object? made (Ledger.object?_allocate_self _ (.structured type _)) (by simp) live
    exact typeOfValue_eq_ok.mp ((later.run made).kept.faithful.typeOfValue_structured (later.isRegistered made there)
      (keeps.denotation? stands) (read ▸ object))

/-- Where integers are registered but texts are not, a foreign integer is an `Int` as a native one is, and a foreign
text has no type, as a native one has none. -/
theorem Run.introspection_integersOnly : ∃ r s, Run r s 0 ∧
    (∃ c s', Bridge.holdObject (s.construct (.int 7)).1 (s.construct (.int 7)).2 = (.foreign c, s') ∧
      (r.typeOfValue s' (.foreign c)).toOption = some (.concrete "Int")) ∧
    ∃ c s', Bridge.holdObject (s.construct (.str "a")).1 (s.construct (.str "a")).2 = (.foreign c, s') ∧
      (r.typeOfValue s' (.foreign c)).toOption = none := by
  have int : (Catalog.find? "Int").get (by decide +kernel) ∈ Catalog.templates := List.get_find?_mem ..
  have providing := Run.providing (.ofNumbers 4 11 0) ["long", "std::string"] 10000
  obtain ⟨r, s, run, integers, texts⟩ : ∃ r s, Run r s 0 ∧ r.isRegistered (.concrete "Int") = true ∧
      r.isRegistered (.concrete "String") = false :=
    ⟨_, _, providing.addFamily _ int, by decide +kernel, by decide +kernel⟩
  have promoted : ∀ v d, v.scalar? = some d →
      ∃ c s', Bridge.holdObject (s.construct d).1 (s.construct d).2 = (.foreign c, s') ∧
        (r.typeOfValue s' (.foreign c)).toOption = r.nativeType? v := fun v d single => by
    have live := Store.isLive_of_object? (Ledger.object?_allocate_self s (.value d))
    obtain ⟨c, s', held, later, read, live', -⟩ := (run.construct single).introspection.2.2.2 _ live
    have told := run.introspection.2.1 v d single r s' _ later live' c read
    exact ⟨c, s', held, told.trans (toOption_typeOfValue_single r s' single)⟩
  have known : r.nativeType? (.int 7) = some (.concrete "Int") := by simp [nativeType?, nativeName?, integers]
  have unknown : r.nativeType? (.str "a") = none := by simp [nativeType?, nativeName?, texts]
  exact ⟨r, s, run, known ▸ promoted (.int 7) _ rfl, unknown ▸ promoted (.str "a") _ rfl⟩

end Registry

end ForeignBridge
