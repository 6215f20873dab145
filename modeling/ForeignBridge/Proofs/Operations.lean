import ForeignBridge.Proofs.Collection
import ForeignBridge.Store.Crossing

/-! # The operations of a store as moves

Every operation of a store other than a collection or a call is a sequence of moves that leaves the cells held from
outside as they were (`moves_*`), and what it hands out was handed out (`issued_*`). -/

namespace ForeignBridge

namespace Store

/-! ### How operations on families, fields and namespaces end -/

theorem provideFamily_cases (s : Store) (name : String) :
    (∃ h, s.family? name = some h ∧ s.provideFamily name = (h, s)) ∨
    (s.family? name = none ∧ s.provideFamily name = (s.nextHandle, s.pushSlot (.family name))) := by
  unfold provideFamily
  cases found : s.family? name with
  | some h => exact .inl ⟨h, rfl, rfl⟩
  | none => exact .inr ⟨rfl, rfl⟩

/-- The ways in which applying a family to parameters ends. -/
inductive AppliesFamily (s : Store) (head : Handle) (params : List Handle) : Handle × Store → Prop
  | refused (message : String) (other : s.isFamily head = false) :
      AppliesFamily s head params (Handle.null, (s.note .applyFamily).raiseMessage message)
  | itself (family : s.isFamily head = true) (none : params = []) :
      AppliesFamily s head params (head, s.note .applyFamily)
  | shared {h : Handle} (family : s.isFamily head = true) (given : params ≠ [])
      (found : s.applied? head params = some h) :
      AppliesFamily s head params (h, s.note .applyFamily)
  | made (family : s.isFamily head = true) (given : params ≠ []) (fresh : s.applied? head params = none) :
      AppliesFamily s head params (s.nextHandle, (s.note .applyFamily).pushSlot (.type head params))

theorem appliesFamily (s : Store) (head : Handle) (params : List Handle) :
    s.AppliesFamily head params (s.applyFamily head params) := by
  have same : (s.note .applyFamily).isFamily head = s.isFamily head := rfl
  have noted : (s.note .applyFamily).applied? head params = s.applied? head params := rfl
  unfold applyFamily
  dsimp only
  rw [same]
  cases family : s.isFamily head with
  | false => exact .refused _ family
  | true =>
    simp only [Bool.not_true, Bool.false_eq_true, if_false, List.isEmpty_iff]
    split
    · next none => exact .itself family none
    · next given =>
      rw [noted]
      cases found : s.applied? head params with
      | some h => exact .shared family given found
      | none => exact .made family given found

theorem readField_cases (s : Store) (h : Handle) (name : String) :
    (∃ value, s.field? h name = some value ∧ s.readField h name = (value, s.note .readField)) ∨
    (s.field? h name = none ∧
      ∃ message, s.readField h name = (Handle.null, (s.note .readField).raiseAbout h message)) := by
  have noted : (s.note .readField).field? h name = s.field? h name := rfl
  unfold readField
  dsimp only
  rw [noted]
  cases found : s.field? h name with
  | some value => exact .inl ⟨value, rfl, rfl⟩
  | none => exact .inr ⟨rfl, _, rfl⟩

/-- A message about a slot is raised, or its description does not end. -/
theorem raiseAbout_cases (s : Store) (h : Handle) (message : String → String) :
    (∃ text, s.description h = some text ∧ s.raiseAbout h message = s.raiseMessage (message (text.getD h.render))) ∨
    (s.description h = none ∧ s.raiseAbout h message = s.halt) := by
  unfold raiseAbout
  cases described : s.description h with
  | none => exact .inr ⟨rfl, rfl⟩
  | some text => exact .inl ⟨text, rfl, rfl⟩

theorem allocate_fst (s : Store) (object : Object) : (s.allocate object).1 = s.nextHandle := by
  show (⟨(s.retainAll object.cells).lastId + 1⟩ : Handle) = ⟨s.lastId + 1⟩
  rw [lastId_retainAll]

theorem enter_cases (s : Store) (parent : Handle) (name : String) :
    (∃ h, s.member? parent name = some h ∧ s.enter parent name = (h, s)) ∨
    (s.member? parent name = none ∧ s.enter parent name = (s.nextHandle,
      (s.allocate (.module name [])).2.setMember parent name s.nextHandle)) := by
  unfold enter
  cases found : s.member? parent name with
  | some h => exact .inl ⟨h, rfl, rfl⟩
  | none => exact .inr ⟨rfl, by simp only [allocate_fst]⟩

end Store

namespace Ledger

variable {s : Store} {o : Multiset CellId} {r u : Multiset Handle}

theorem Moves.trans {L M N : Ledger} (first : Moves L M) (second : Moves M N) : Moves L N :=
  Relation.ReflTransGen.trans first second

theorem Move.moves {L M : Ledger} (move : Move L M) : Moves L M := Relation.ReflTransGen.single move

theorem Evolves.trans {L M N : Ledger} (first : Evolves L M) (second : Evolves M N) : Evolves L N :=
  Relation.ReflTransGen.trans first second

theorem Moves.refl (L : Ledger) : Moves L L := Relation.ReflTransGen.refl

theorem Evolves.refl (L : Ledger) : Evolves L L := Relation.ReflTransGen.refl

theorem Moves.lastId_le {L M : Ledger} (moves : Moves L M) : L.store.lastId ≤ M.store.lastId :=
  moves.evolves.lastId_le

theorem Moves.issued {L M : Ledger} (moves : Moves L M) {h : Handle} (issued : L.store.Issued h) : M.store.Issued h :=
  moves.evolves.issued issued

/-! ### Cells of a list -/

theorem moves_note (e : Event) : Moves ⟨s, o, r, u⟩ ⟨s.note e, o, r, u⟩ := (Move.log s o r u _ _).moves

theorem moves_halt : Moves ⟨s, o, r, u⟩ ⟨s.halt, o, r, u⟩ := (Move.log s o r u _ _).moves

theorem moves_retainAll : ∀ (cs : List CellId) {s : Store} {o : Multiset CellId},
    (∀ c ∈ cs, Holds ⟨s, o, r, u⟩ c) → Moves ⟨s, o, r, u⟩ ⟨s.retainAll cs, cs + o, r, u⟩
  | [], s, o, _ => by
      rw [Multiset.coe_nil, zero_add]
      exact .refl _
  | c :: cs, s, o, held => by
      have first := (Move.retain s o r u c (held c List.mem_cons_self)).moves
      have later : ∀ d ∈ cs, Holds ⟨s.retain c, c ::ₘ o, r, u⟩ d := by
        intro d hd
        have := held d (List.mem_cons_of_mem _ hd)
        show d ∈ c ::ₘ o + s.boxed
        rw [Multiset.cons_add]
        exact Multiset.mem_cons_of_mem this
      have rest := moves_retainAll cs later
      rw [← Multiset.cons_coe, Multiset.cons_add, ← Multiset.add_cons]
      exact first.trans rest

theorem moves_releaseAll : ∀ (cs : List CellId) {s : Store},
    Moves ⟨s, cs + o, r, u⟩ ⟨s.releaseAll cs, o, r, u⟩
  | [], s => by
      rw [Multiset.coe_nil, zero_add]
      exact .refl _
  | c :: cs, s => by
      rw [← Multiset.cons_coe, Multiset.cons_add]
      exact (Move.release s (cs + o) r u c).moves.trans (moves_releaseAll cs)

theorem slots_retainAll (cs : List CellId) : ∀ s : Store, (s.retainAll cs).slots = s.slots :=
  Store.apply_retainAll Store.slots (fun _ _ => rfl) cs

/-! ### New slots -/

theorem moves_allocate {object : Object} (plain : object.isTypeEntry = false)
    (issued : ∀ h ∈ object.handles, s.Issued h)
    (bare : ∀ name members, object = .module name members → members = []) (held : ∀ c ∈ object.cells, c ∈ o) :
    Moves ⟨s, o, r, u⟩ ⟨(s.allocate object).2, o, r, u⟩ := by
  have first : Moves ⟨s, o, r, u⟩ ⟨s.retainAll object.cells, object.cells + o, r, u⟩ :=
    moves_retainAll _ fun c hc => Multiset.mem_add.mpr (.inl (held c hc))
  rw [Store.allocate_eq s object plain]
  have admitted : (s.retainAll object.cells).Admits object :=
    { Store.enters_of_plain plain with issued := fun h hh => first.issued (issued h hh), module := bare }
  exact first.trans (Move.push _ o r u object admitted).moves

theorem moves_push {object : Object} (cellless : object.cells = []) (admitted : s.Admits object) :
    Moves ⟨s, o, r, u⟩ ⟨s.pushSlot object, o, r, u⟩ := by
  have pushed := (Move.push s o r u object admitted).moves
  rwa [cellless, Multiset.coe_nil, zero_add] at pushed

theorem issued_allocate (s : Store) (object : Object) : (s.allocate object).2.Issued (s.allocate object).1 :=
  Store.issued_nextHandle_pushSlot (s.retainAll object.cells) object

theorem object?_allocate (s : Store) (object : Object) (k : Handle) :
    (s.allocate object).2.object? k = if k = s.nextHandle then some object else s.object? k := by
  have next : (s.retainAll object.cells).nextHandle = s.nextHandle := Store.allocate_fst s object
  show ((s.retainAll object.cells).pushSlot object).object? k = _
  rw [Store.object?_pushSlot, next, Store.object?_congr (slots_retainAll _ s)]

theorem object?_allocate_self (s : Store) (object : Object) :
    (s.allocate object).2.object? (s.allocate object).1 = some object := by
  rw [object?_allocate, Store.allocate_fst, if_pos rfl]

theorem moves_construct {data : Datum CellId} (issued : ∀ h ∈ data.handles, s.Issued h)
    (held : ∀ c ∈ data.references, c ∈ o) : Moves ⟨s, o, r, u⟩ ⟨(s.construct data).2, o, r, u⟩ :=
  moves_allocate rfl issued (fun _ _ e => by cases e) held

theorem issued_construct (s : Store) (data : Datum CellId) : (s.construct data).2.Issued (s.construct data).1 :=
  issued_allocate s _

theorem moves_raise {data : Datum CellId} (issued : ∀ h ∈ data.handles, s.Issued h)
    (held : ∀ c ∈ data.references, c ∈ o) : Moves ⟨s, o, r, u⟩ ⟨s.raise data, o, r, u⟩ := by
  apply (moves_construct issued held).trans
  apply Move.moves
  apply Move.fault
  exact Store.isLive_of_object? (object?_allocate_self s _)

theorem moves_raiseMessage (message : String) : Moves ⟨s, o, r, u⟩ ⟨s.raiseMessage message, o, r, u⟩ :=
  moves_raise (fun _ hh => by cases hh) fun _ hc => by cases hc

theorem moves_raiseAbout (h : Handle) (message : String → String) :
    Moves ⟨s, o, r, u⟩ ⟨s.raiseAbout h message, o, r, u⟩ := by
  obtain ⟨_, _, same⟩ | ⟨_, same⟩ := s.raiseAbout_cases h message
  · rw [same]
    exact moves_raiseMessage _
  · rw [same]
    exact moves_halt

/-- The slots of the fields of a new object, one after the other. -/
theorem moves_fields : ∀ (fields : List (String × Datum CellId)) (members : Keyed Handle) {s : Store},
    (∀ h ∈ members.map Prod.snd, s.Issued h) → (∀ field ∈ fields, ∀ h ∈ field.2.handles, s.Issued h) →
    (∀ field ∈ fields, ∀ c ∈ field.2.references, c ∈ o) →
    let built := fields.foldl (fun (members, s) (name, data) =>
      let (h, s) := s.construct data
      (Keyed.insert name h members, s)) (members, s)
    Moves ⟨s, o, r, u⟩ ⟨built.2, o, r, u⟩ ∧ ∀ h ∈ built.1.map Prod.snd, built.2.Issued h
  | [], members, s, known, _, _ => ⟨.refl _, known⟩
  | (name, data) :: fields, members, s, known, issued, held => by
      have first : Moves ⟨s, o, r, u⟩ ⟨(s.construct data).2, o, r, u⟩ :=
        moves_construct (issued _ List.mem_cons_self) (held _ List.mem_cons_self)
      have known' : ∀ h ∈ (Keyed.insert name (s.construct data).1 members).map Prod.snd,
          (s.construct data).2.Issued h := by
        intro h hh
        rcases Keyed.mem_values_insert hh with rfl | old
        · exact issued_construct s data
        · exact first.issued (known h old)
      obtain ⟨rest, all⟩ := moves_fields fields _ known'
        (fun field hf h hh => first.issued (issued field (List.mem_cons_of_mem _ hf) h hh))
        fun field hf => held field (List.mem_cons_of_mem _ hf)
      exact ⟨first.trans rest, all⟩

theorem moves_create {type : Handle} {fields : List (String × Datum CellId)} (known : s.Issued type)
    (issued : ∀ field ∈ fields, ∀ h ∈ field.2.handles, s.Issued h)
    (held : ∀ field ∈ fields, ∀ c ∈ field.2.references, c ∈ o) :
    Moves ⟨s, o, r, u⟩ ⟨(s.create type fields).2, o, r, u⟩ := by
  obtain ⟨built, members⟩ := moves_fields (r := r) (u := u) fields [] (by simp) issued held
  refine built.trans (moves_allocate rfl ?_ (fun _ _ e => by cases e) fun c hc => by cases hc)
  intro h hh
  rcases List.mem_cons.mp hh with rfl | hh
  · exact built.issued known
  · exact members h hh

theorem issued_create (s : Store) (type : Handle) (fields : List (String × Datum CellId)) :
    (s.create type fields).2.Issued (s.create type fields).1 := issued_allocate _ _

/-! ### Families, namespaces and fields -/

theorem issued_family? (closed : s.Closed) {name : String} {h : Handle} (found : s.family? name = some h) :
    s.Issued h :=
  closed.entries h (Store.mem_entries.mpr (.inl (List.mem_map_of_mem (Keyed.mem_of_get? found))))

theorem issued_applied? (closed : s.Closed) {head h : Handle} {params : List Handle}
    (found : s.applied? head params = some h) : s.Issued h :=
  closed.entries h (Store.mem_entries.mpr (.inr (List.mem_map_of_mem (Assoc.mem_of_lookup found))))

theorem moves_provideFamily (name : String) : Moves ⟨s, o, r, u⟩ ⟨(s.provideFamily name).2, o, r, u⟩ := by
  obtain ⟨_, _, same⟩ | ⟨fresh, same⟩ := s.provideFamily_cases name
  · rw [same]
    exact .refl _
  · rw [same]
    exact moves_push rfl
      { Store.enters_family fresh with
        issued := fun _ hh => absurd hh List.not_mem_nil
        module := fun _ _ e => by cases e }

theorem issued_provideFamily (closed : s.Closed) (name : String) :
    (s.provideFamily name).2.Issued (s.provideFamily name).1 := by
  obtain ⟨h, found, same⟩ | ⟨_, same⟩ := s.provideFamily_cases name
  · rw [same]
    exact issued_family? closed found
  · rw [same]
    exact Store.issued_nextHandle_pushSlot s _

theorem moves_applyFamily {head : Handle} {params : List Handle} (known : s.Issued head)
    (issued : ∀ h ∈ params, s.Issued h) : Moves ⟨s, o, r, u⟩ ⟨(s.applyFamily head params).2, o, r, u⟩ := by
  apply (moves_note .applyFamily).trans
  have ways := s.appliesFamily head params
  generalize s.applyFamily head params = result at ways ⊢
  cases ways with
  | refused message other => exact moves_raiseMessage message
  | itself | shared => exact .refl _
  | made family given fresh =>
    have handed : ∀ h ∈ head :: params, s.Issued h := by
      intro h hh
      rcases List.mem_cons.mp hh with rfl | hh
      · exact known
      · exact issued h hh
    have enters : (s.note .applyFamily).Enters (.type head params) := Store.enters_type family given fresh
    exact moves_push rfl { enters with issued := handed, module := fun _ _ e => by cases e }

theorem issued_applyFamily {head : Handle} {params : List Handle} (known : s.Issued head)
    (applied : ∀ h, s.applied? head params = some h → s.Issued h) :
    (s.applyFamily head params).2.Issued (s.applyFamily head params).1 := by
  have ways := s.appliesFamily head params
  generalize s.applyFamily head params = result at ways ⊢
  cases ways with
  | refused => exact Store.issued_null _
  | itself => exact known
  | shared family given found => exact applied _ found
  | made => exact Store.issued_nextHandle_pushSlot (s.note .applyFamily) _

theorem issued_get? {members : Keyed Handle} {name : String} {h : Handle}
    (known : ∀ k ∈ members.map Prod.snd, s.Issued k) (found : members.get? name = some h) : s.Issued h := by
  induction members with
  | nil => simp [Keyed.get?] at found
  | cons e rest ih =>
    obtain ⟨k, v⟩ := e
    unfold Keyed.get? at found
    split at found
    · obtain rfl := Option.some.inj found
      exact known _ List.mem_cons_self
    · exact ih (fun x hx => known x (List.mem_cons_of_mem _ hx)) found

theorem issued_member? (closed : s.Closed) {parent h : Handle} {name : String}
    (found : s.member? parent name = some h) : s.Issued h := by
  unfold Store.member? at found
  split at found
  · next own members e => exact issued_get? (closed.objects parent _ e) found
  · exact absurd found (by simp)

theorem issued_field? (closed : s.Closed) {value h : Handle} {name : String}
    (found : s.field? value name = some h) : s.Issued h := by
  unfold Store.field? at found
  split at found
  · next type fields e =>
    exact issued_get? (fun k hk => closed.objects value _ e k (List.mem_cons_of_mem _ hk)) found
  · next own members e => exact issued_get? (closed.objects value _ e) found
  · exact absurd found (by simp)

theorem moves_setMember (parent : Handle) (name : String) {h : Handle} (issued : s.Issued h) :
    Moves ⟨s, o, r, u⟩ ⟨s.setMember parent name h, o, r, u⟩ := (Move.setMember s o r u parent name h issued).moves

theorem moves_enter (closed : s.Closed) (parent : Handle) (name : String) :
    Moves ⟨s, o, r, u⟩ ⟨(s.enter parent name).2, o, r, u⟩ ∧ (s.enter parent name).2.Issued (s.enter parent name).1 := by
  obtain ⟨h, found, same⟩ | ⟨_, same⟩ := s.enter_cases parent name
  · rw [same]
    exact ⟨.refl _, issued_member? closed found⟩
  · rw [same]
    have made := issued_allocate s (.module name [])
    have first : Moves ⟨s, o, r, u⟩ ⟨(s.allocate (.module name [])).2, o, r, u⟩ := by
      refine moves_allocate rfl (fun h hh => by cases hh) (fun own members e => ?_) fun c hc => by cases hc
      cases e
      rfl
    refine ⟨first.trans (moves_setMember parent name made), made.mono ?_⟩
    exact (Store.lastId_setMember _ parent name _).ge

theorem moves_enterAll : ∀ (parts : List String) {s : Store} {parent : Handle}, Ledger.Sound ⟨s, o, r, u⟩ →
    s.Issued parent → Moves ⟨s, o, r, u⟩ ⟨(s.enterAll parent parts).2, o, r, u⟩ ∧
      (s.enterAll parent parts).2.Issued (s.enterAll parent parts).1
  | [], s, parent, _, known => ⟨.refl _, known⟩
  | name :: rest, s, parent, sound, _ => by
      obtain ⟨first, made⟩ := moves_enter (o := o) (r := r) (u := u) sound.closed parent name
      obtain ⟨later, last⟩ := moves_enterAll rest (first.sound sound) made
      exact ⟨first.trans later, last⟩

theorem moves_defineModule (sound : Ledger.Sound ⟨s, o, r, u⟩) (path : String) :
    Moves ⟨s, o, r, u⟩ ⟨(s.defineModule path).2, o, r, u⟩ ∧
      (s.defineModule path).2.Issued (s.defineModule path).1 :=
  moves_enterAll _ sound sound.closed.main

theorem moves_defineMember (sound : Ledger.Sound ⟨s, o, r, u⟩) (path name : String) {h : Handle}
    (issued : s.Issued h) : Moves ⟨s, o, r, u⟩ ⟨s.defineMember path name h, o, r, u⟩ := by
  have first := (moves_defineModule sound path).1
  exact first.trans (moves_setMember _ name (first.issued issued))

theorem moves_defineFunction (sound : Ledger.Sound ⟨s, o, r, u⟩) (path name : String) (captured : List CellId)
    (body : List Handle → Program) (held : ∀ c ∈ captured, c ∈ o) :
    Moves ⟨s, o, r, u⟩ ⟨(s.defineFunction path name captured body).2, o, r, u⟩ ∧
      (s.defineFunction path name captured body).2.Issued (s.defineFunction path name captured body).1 := by
  have first : Moves ⟨s, o, r, u⟩ ⟨(s.allocate (.function name captured body)).2, o, r, u⟩ :=
    moves_allocate rfl (fun h hh => by cases hh) (fun _ _ e => by cases e) held
  have made := issued_allocate s (.function name captured body)
  have second := moves_defineMember (first.sound sound) path name made
  exact ⟨first.trans second, second.issued made⟩

theorem moves_defineGlobal (sound : Ledger.Sound ⟨s, o, r, u⟩) (path name : String) {data : Datum CellId}
    (issued : ∀ h ∈ data.handles, s.Issued h) (held : ∀ c ∈ data.references, c ∈ o) :
    Moves ⟨s, o, r, u⟩ ⟨(s.defineGlobal path name data).2, o, r, u⟩ ∧
      (s.defineGlobal path name data).2.Issued (s.defineGlobal path name data).1 := by
  have first := moves_construct (s := s) (o := o) (r := r) (u := u) issued held
  have made := issued_construct s data
  have second := moves_defineMember (first.sound sound) path name made
  exact ⟨first.trans second, second.issued made⟩

theorem moves_readField (value : Handle) (name : String) :
    Moves ⟨s, o, r, u⟩ ⟨(s.readField value name).2, o, r, u⟩ := by
  apply (moves_note .readField).trans
  obtain ⟨_, _, same⟩ | ⟨_, message, same⟩ := s.readField_cases value name
  · rw [same]
    exact .refl _
  · rw [same]
    exact moves_raiseAbout value message

theorem issued_readField (closed : s.Closed) (value : Handle) (name : String) :
    (s.readField value name).2.Issued (s.readField value name).1 := by
  obtain ⟨h, found, same⟩ | ⟨_, message, same⟩ := s.readField_cases value name
  · rw [same]
    exact issued_field? (s := s) closed found
  · rw [same]
    exact Store.issued_null _

theorem issued_typeOf (closed : s.Closed) (h : Handle) : s.Issued (s.typeOf h) := by
  have scalar : ∀ name, s.Issued ((s.family? name).getD Handle.null) := by
    intro name
    cases found : s.family? name with
    | none => exact Store.issued_null s
    | some k => exact issued_family? closed found
  unfold Store.typeOf
  dsimp only
  split
  · exact scalar _
  · exact scalar _
  · exact scalar _
  · exact scalar _
  · next head fields e => exact closed.objects h _ e head List.mem_cons_self
  · exact Store.issued_null s

/-! ### Faults -/

theorem moves_pendingFault : Moves ⟨s, o, r, u⟩ ⟨s.pendingFault.2, o, r, u⟩ := moves_note _

theorem moves_describe (h : Handle) : Moves ⟨s, o, r, u⟩ ⟨(s.describe h).2, o, r, u⟩ := by
  apply (moves_note .describe).trans
  unfold Store.describe
  dsimp only
  split
  · exact .refl _
  · exact moves_halt

theorem moves_clearFault : Moves ⟨s, o, r, u⟩ ⟨s.clearFault, o, r, u⟩ :=
  (moves_note _).trans (Move.forget _ o r u).moves

theorem moves_takeFault : Moves ⟨s, o, r, u⟩ ⟨s.takeFault.2, o, r, u⟩ := by
  apply moves_pendingFault.trans
  unfold Store.takeFault
  dsimp only [Store.pendingFault]
  split
  · exact .refl _
  · exact (moves_describe _).trans moves_clearFault

end Ledger

end ForeignBridge
