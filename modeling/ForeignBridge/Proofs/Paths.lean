import ForeignBridge.Bridge.ModulePath
import ForeignBridge.Proofs.Operations

/-! # Paths into the namespaces

Defining and resolving take a dotted path apart in the same way (`resolvedParts_eq_pathParts`), but they go down
differently: defining follows members of any kind and makes what is missing, resolving follows only namespaces. So what
is defined at a path is found there exactly if the path is clear, which means that its names lead to namespaces as far as
they lead anywhere (`Tree.resolveModule_defineModule`, `Tree.resolveFunction_defineFunction`).

* Defining a namespace only adds to the store (`Grows`). On a clear path it leads to where resolving goes
  (`walk_enterAll`); on any other it ends outside of the namespaces that were there (`enterAll_of_blocked`).
* The namespaces form a `Tree`: each is younger than the one it is in. So a member that is put at the end of a path takes
  the place of nothing that the path goes through (`Tree.walk_setMember`). -/

namespace ForeignBridge

/-! ### Dotted texts -/

namespace Text

variable {before after text : List Char}

theorem splitLastDot_of_plain (plain : '.' ∉ text) : splitLastDot text = none := by
  induction text with
  | nil => rfl
  | cons c rest ih =>
    obtain ⟨other, plain'⟩ := not_or.mp (List.mem_cons.not.mp plain)
    rw [splitLastDot, ih plain', if_neg (Ne.symm other)]

theorem splitLastDot_append (plain : '.' ∉ after) (before : List Char) :
    splitLastDot (before ++ '.' :: after) = some (before, after) := by
  induction before with
  | nil => rw [List.nil_append, splitLastDot, splitLastDot_of_plain plain, if_pos rfl]
  | cons c before ih => rw [List.cons_append, splitLastDot, ih]

end Text

namespace Store

/-- No part of the path is empty. The empty path has no parts. -/
def IsDotted (path : String) : Prop := path = "" ∨ [] ∉ Text.splitDots path.toList

instance (path : String) : Decidable (IsDotted path) := inferInstanceAs (Decidable (_ ∨ _))

/-- The path of a member of what stands at a path. -/
def memberPath (path name : String) : String := if path = "" then name else path ++ "." ++ name

variable {path name : String} {s t : Store} {p k h c : Handle} {object : Object}

theorem ne_empty_of_mem_pathParts (part : name ∈ pathParts path) : name ≠ "" := by
  obtain ⟨text, there, rfl⟩ := List.mem_map.mp part
  have some : text ≠ [] := by simpa using (List.mem_filter.mp there).2
  simpa [String.ext_iff] using some

/-- Defining and resolving take a path apart in the same way. -/
theorem resolvedParts_eq_pathParts (dotted : IsDotted path) : resolvedParts path = pathParts path := by
  unfold resolvedParts pathParts
  rcases dotted with rfl | full
  · rfl
  · have some : path ≠ "" := by
      rintro rfl
      exact full (List.mem_singleton.mpr rfl)
    rw [if_neg (by simpa using some), List.filter_eq_self.mpr]
    intro text there
    have : text ≠ [] := fun empty => full (empty ▸ there)
    simpa using this

theorem splitPath_memberPath (plain : '.' ∉ name.toList) (path : String) :
    splitPath (memberPath path name) = (path, name) := by
  unfold splitPath memberPath
  by_cases empty : path = ""
  · rw [if_pos empty, Text.splitLastDot_of_plain plain, empty]
  · have text : (path ++ "." ++ name).toList = path.toList ++ '.' :: name.toList := by simp
    rw [if_neg empty, text, Text.splitLastDot_append plain]
    simp

/-! ### Members -/

theorem isModule_iff : s.isModule h = true ↔ ∃ own members, s.object? h = some (.module own members) := by
  unfold isModule
  split
  · next own members found => exact ⟨fun _ => ⟨own, members, found⟩, fun _ => rfl⟩
  · next other => exact iff_of_false Bool.false_ne_true fun ⟨own, members, found⟩ => other own members found

theorem member?_eq_some : s.member? p name = some h ↔
    ∃ own members, s.object? p = some (.module own members) ∧ members.get? name = some h := by
  unfold member?
  split
  · next own members found =>
    refine ⟨fun there => ⟨own, members, found, there⟩, ?_⟩
    rintro ⟨own', members', found', there⟩
    obtain ⟨-, rfl⟩ := Object.module.inj (Option.some.inj (found.symm.trans found'))
    exact there
  · next other => exact iff_of_false (by simp) fun ⟨own, members, found, _⟩ => other own members found

theorem isModule_of_member? (member : s.member? p name = some h) : s.isModule p = true := by
  obtain ⟨own, members, found, _⟩ := member?_eq_some.mp member
  exact isModule_iff.mpr ⟨own, members, found⟩

theorem issued_of_isModule (module : s.isModule h = true) : s.Issued h := by
  obtain ⟨own, members, found⟩ := isModule_iff.mp module
  exact issued_of_object? found

theorem object?_setMember (s : Store) (p : Handle) (name : String) (v k : Handle) :
    (s.setMember p name v).object? k = if k = p then (s.object? p).map fun
      | .module own members => .module own (members.insert name v)
      | object => object
    else s.object? k := by
  unfold setMember
  rw [object?_updateSlot]
  refine if_congr Iff.rfl ?_ rfl
  unfold object?
  rw [Option.map_map]
  refine congrArg (Option.map · (s.slot? p)) (funext fun slot => ?_)
  obtain ⟨object, roots⟩ := slot
  cases object <;> rfl

theorem isModule_setMember (s : Store) (p : Handle) (name : String) (v k : Handle) :
    (s.setMember p name v).isModule k = s.isModule k := by
  unfold isModule
  rw [object?_setMember]
  by_cases same : k = p
  · rw [if_pos same, same]
    cases s.object? p with
    | none => rfl
    | some object => cases object <;> rfl
  · rw [if_neg same]

theorem member?_setMember (s : Store) (p : Handle) (name : String) (v k : Handle) (other : String) :
    (s.setMember p name v).member? k other =
      if s.isModule p = true ∧ k = p ∧ other = name then some v else s.member? k other := by
  unfold member? isModule
  rw [object?_setMember]
  by_cases same : k = p
  · subst same
    rw [if_pos rfl]
    cases s.object? k with
    | none => simp
    | some object =>
      cases object with
      | module own members => simp
      | _ => simp
  · simp [same]

theorem issued_setMember {v : Handle} : (s.setMember p name v).Issued h ↔ s.Issued h := by
  rw [Issued, Issued, lastId_setMember]

theorem object?_allocate_of_some {old : Object} (found : s.object? h = some old) :
    (s.allocate object).2.object? h = some old := by
  rw [Ledger.object?_allocate, if_neg]
  · exact found
  · rintro rfl
    exact not_issued_nextHandle s (issued_of_object? found)

theorem member?_of_not_module (other : s.isModule p = false) (name : String) : s.member? p name = none := by
  by_contra found
  obtain ⟨h, there⟩ := Option.ne_none_iff_exists'.mp found
  rw [isModule_of_member? there] at other
  cases other

/-- A new slot has no members, and is no member yet. -/
theorem member?_allocate (childless : ∀ own members, object = .module own members → members = [])
    (s : Store) (k : Handle) (name : String) : (s.allocate object).2.member? k name = s.member? k name := by
  unfold member?
  rw [Ledger.object?_allocate]
  by_cases same : k = s.nextHandle
  · rw [if_pos same, same, object?_of_not_issued (not_issued_nextHandle s)]
    cases object with
    | module own members =>
      rw [childless own members rfl]
      rfl
    | _ => rfl
  · rw [if_neg same]

theorem isModule_allocate_of_issued (issued : s.Issued k) : (s.allocate object).2.isModule k = s.isModule k := by
  unfold isModule
  rw [Ledger.object?_allocate, if_neg]
  rintro rfl
  exact not_issued_nextHandle s issued

theorem lastId_le_allocate (s : Store) (object : Object) : s.lastId ≤ (s.allocate object).2.lastId := by
  show s.lastId ≤ (s.retainAll object.cells).lastId + 1
  rw [lastId_retainAll]
  exact Nat.le_succ _

/-! ### Changes that leave the namespaces alone -/

/-- Objects stay, and no namespace is new or has a new member. -/
structure Plain (s t : Store) : Prop where
  objects : ∀ h object, s.object? h = some object → t.object? h = some object
  namespaces : ∀ h own members, t.object? h = some (.module own members) → s.object? h = some (.module own members)
  last : s.lastId ≤ t.lastId

theorem Plain.refl (s : Store) : s.Plain s := ⟨fun _ _ found => found, fun _ _ _ found => found, le_rfl⟩

theorem Plain.trans {w : Store} (first : s.Plain t) (second : t.Plain w) : s.Plain w where
  objects _ _ found := second.objects _ _ (first.objects _ _ found)
  namespaces _ _ _ found := first.namespaces _ _ _ (second.namespaces _ _ _ found)
  last := first.last.trans second.last

theorem plain_of_objects (same : ∀ h, t.object? h = s.object? h) (last : s.lastId ≤ t.lastId) : s.Plain t where
  objects h _ found := (same h).trans found
  namespaces h _ _ found := (same h).symm.trans found
  last := last

theorem plain_of_slots (same : t.slots = s.slots) (last : t.lastId = s.lastId) : s.Plain t :=
  plain_of_objects (object?_congr same) last.ge

/-- Something other than a namespace stands at the next handle, and all else as before. -/
theorem plain_of_new (other : ∀ own members, object ≠ .module own members)
    (made : ∀ k, t.object? k = if k = s.nextHandle then some object else s.object? k) (last : s.lastId ≤ t.lastId) :
    s.Plain t where
  objects h _ found := by
    rw [made, if_neg]
    · exact found
    · rintro rfl
      exact not_issued_nextHandle s (issued_of_object? found)
  namespaces h own members found := by
    rw [made] at found
    split at found
    · exact absurd (Option.some.inj found) (other own members)
    · exact found
  last := last

theorem plain_allocate (other : ∀ own members, object ≠ .module own members) : s.Plain (s.allocate object).2 :=
  plain_of_new other (Ledger.object?_allocate s object) (lastId_le_allocate s object)

theorem plain_pushSlot (other : ∀ own members, object ≠ .module own members) : s.Plain (s.pushSlot object) :=
  plain_of_new other (object?_pushSlot s object) (Nat.le_succ _)

theorem Plain.isModule (plain : s.Plain t) (h : Handle) : t.isModule h = s.isModule h := by
  refine Bool.eq_iff_iff.mpr ?_
  rw [isModule_iff, isModule_iff]
  exact ⟨fun ⟨own, members, found⟩ => ⟨own, members, plain.namespaces h own members found⟩,
    fun ⟨own, members, found⟩ => ⟨own, members, plain.objects h _ found⟩⟩

theorem Plain.member? (plain : s.Plain t) (p : Handle) (name : String) : t.member? p name = s.member? p name := by
  refine Option.ext fun h => ?_
  rw [member?_eq_some, member?_eq_some]
  exact ⟨fun ⟨own, members, found, there⟩ => ⟨own, members, plain.namespaces p own members found, there⟩,
    fun ⟨own, members, found, there⟩ => ⟨own, members, plain.objects p _ found, there⟩⟩

/-! ### Growing -/

/-- There are more namespaces and members. What was a member still is one, and nothing has become a namespace or ceased
to be one. -/
structure Grows (s t : Store) : Prop where
  members : ∀ p name h, s.member? p name = some h → t.member? p name = some h
  kinds : ∀ h, s.Issued h → t.isModule h = s.isModule h
  others : ∀ h object, (∀ own members, object ≠ .module own members) → s.object? h = some object →
    t.object? h = some object
  issued : ∀ h, s.Issued h → t.Issued h

theorem Grows.refl (s : Store) : s.Grows s :=
  ⟨fun _ _ _ there => there, fun _ _ => rfl, fun _ _ _ found => found, fun _ issued => issued⟩

theorem Grows.trans {w : Store} (first : s.Grows t) (second : t.Grows w) : s.Grows w where
  members p name h there := second.members p name h (first.members p name h there)
  kinds h issued := (second.kinds h (first.issued h issued)).trans (first.kinds h issued)
  others h object other found := second.others h object other (first.others h object other found)
  issued h issued := second.issued h (first.issued h issued)

theorem grows_allocate (childless : ∀ own members, object = .module own members → members = []) :
    s.Grows (s.allocate object).2 where
  members p name h there := by rwa [member?_allocate childless]
  kinds _ issued := isModule_allocate_of_issued issued
  others h _ _ found := object?_allocate_of_some found
  issued _ issued := issued.mono (lastId_le_allocate s object)

/-- A member is added under a name that was free. -/
theorem Grows.setMember (grows : s.Grows t) (free : s.member? p name = none) (v : Handle) :
    s.Grows (t.setMember p name v) where
  members k other h there := by
    rw [member?_setMember, if_neg]
    · exact grows.members k other h there
    · rintro ⟨-, rfl, rfl⟩
      rw [free] at there
      cases there
  kinds k issued := (isModule_setMember ..).trans (grows.kinds k issued)
  others k object other found := by
    have stays := grows.others k object other found
    rw [object?_setMember]
    split
    · next same =>
      subst same
      rw [stays]
      cases object with
      | module own members => exact absurd rfl (other own members)
      | _ => rfl
    · exact stays
  issued k issued := issued_setMember.mpr (grows.issued k issued)

theorem enter_of_member (member : s.member? p name = some h) : s.enter p name = (h, s) := by rw [enter, member]

theorem enter_of_none (free : s.member? p name = none) :
    s.enter p name = (s.nextHandle, (s.allocate (.module name [])).2.setMember p name s.nextHandle) := by
  rw [enter, free]
  simp only [allocate_fst]

theorem childless_module (name : String) :
    ∀ own members, Object.module name [] = .module own members → members = [] := by
  rintro own members same
  exact (Object.module.inj same).2.symm

theorem grows_enter (s : Store) (p : Handle) (name : String) : s.Grows (s.enter p name).2 := by
  cases member : s.member? p name with
  | some h =>
    rw [enter_of_member member]
    exact .refl s
  | none =>
    rw [enter_of_none member]
    exact (grows_allocate (childless_module name)).setMember member _

theorem grows_enterAll : ∀ (parts : List String) (p : Handle) (s : Store), s.Grows (s.enterAll p parts).2
  | [], _, s => .refl s
  | name :: rest, p, s => (grows_enter s p name).trans (grows_enterAll rest _ _)

theorem issued_enter_of_none (free : s.member? p name = none) : (s.enter p name).2.Issued (s.enter p name).1 := by
  rw [enter_of_none free, issued_setMember, ← allocate_fst s (.module name [])]
  exact Ledger.issued_allocate s _

/-- What is entered stands under its name. -/
theorem member?_enter (module : s.isModule p = true) (name : String) :
    (s.enter p name).2.member? p name = some (s.enter p name).1 := by
  cases member : s.member? p name with
  | some h => rw [enter_of_member member, member]
  | none =>
    rw [enter_of_none member, member?_setMember, if_pos]
    exact ⟨(isModule_allocate_of_issued (issued_of_isModule module)).trans module, rfl, rfl⟩

/-- A namespace that is made on the way has no members yet. -/
theorem member?_enter_of_none (issued : s.Issued p) (free : s.member? p name = none) (other : String) :
    (s.enter p name).2.member? (s.enter p name).1 other = none := by
  have apart : s.nextHandle ≠ p := fun same => not_issued_nextHandle s (same ▸ issued)
  rw [enter_of_none free, member?_setMember, if_neg fun new => apart new.2.1, member?_allocate (childless_module name)]
  unfold member?
  rw [object?_of_not_issued (not_issued_nextHandle s)]

/-! ### Going down a path -/

/-- As far as the names lead from a namespace, they lead to namespaces. -/
def isClearFrom (s : Store) (parent : Handle) : List String → Bool
  | [] => true
  | name :: rest =>
    match s.member? parent name with
    | none => true
    | some child => s.isModule child && s.isClearFrom child rest

/-- Nothing but namespaces stands on the path. -/
def isClear (s : Store) (path : String) : Bool := s.isClearFrom mainModule (pathParts path)

theorem isClearFrom_of_member {rest : List String} (member : s.member? p name = some c) :
    s.isClearFrom p (name :: rest) = (s.isModule c && s.isClearFrom c rest) := by
  rw [isClearFrom, member]

theorem isClearFrom_of_childless (childless : ∀ name, s.member? p name = none) (parts : List String) :
    s.isClearFrom p parts = true := by
  cases parts with
  | nil => rfl
  | cons name rest => rw [isClearFrom, childless name]

theorem walk_cons {rest : List String} (nonempty : name ≠ "") : s.walk p (name :: rest) = some h ↔
    ∃ c, s.member? p name = some c ∧ s.isModule c = true ∧ s.walk c rest = some h := by
  rw [walk, if_neg (by simpa using nonempty)]
  cases found : s.submodule? p name with
  | none =>
    refine iff_of_false (by simp) ?_
    rintro ⟨c, member, module, _⟩
    rw [submodule?, member, Option.filter_some, module] at found
    cases found
  | some c =>
    obtain ⟨member, module⟩ := Option.filter_eq_some_iff.mp found
    refine ⟨fun walked => ⟨c, member, module, walked⟩, ?_⟩
    rintro ⟨c', member', _, walked⟩
    obtain rfl := Option.some.inj (member.symm.trans member')
    exact walked

/-- Where a path leads, defining finds what is there and makes nothing. -/
theorem enterAll_of_walk : ∀ {parts : List String} {p : Handle}, (∀ name ∈ parts, name ≠ "") →
    s.walk p parts = some h → s.enterAll p parts = (h, s)
  | [], p, _, walked => by rw [enterAll, Option.some.inj walked]
  | name :: rest, p, full, walked => by
    obtain ⟨c, member, _, walked'⟩ := (walk_cons (full name List.mem_cons_self)).mp walked
    rw [enterAll, enter_of_member member]
    exact enterAll_of_walk (fun part there => full part (List.mem_cons_of_mem _ there)) walked'

/-- **On a clear path, what was defined is found.** -/
theorem walk_enterAll : ∀ {parts : List String} {p : Handle} {s : Store}, (∀ name ∈ parts, name ≠ "") →
    s.isModule p = true → s.isClearFrom p parts = true →
    (s.enterAll p parts).2.walk p parts = some (s.enterAll p parts).1 ∧
      (s.enterAll p parts).2.isModule (s.enterAll p parts).1 = true
  | [], p, s, _, module, _ => ⟨rfl, module⟩
  | name :: rest, p, s, full, module, clear => by
    have below : (s.enter p name).2.isModule (s.enter p name).1 = true ∧
        (s.enter p name).2.isClearFrom (s.enter p name).1 rest = true := by
      cases member : s.member? p name with
      | some c =>
        rw [isClearFrom_of_member member, Bool.and_eq_true] at clear
        rwa [enter_of_member member]
      | none =>
        refine ⟨?_, isClearFrom_of_childless (member?_enter_of_none (issued_of_isModule module) member) rest⟩
        rw [enter_of_none member, isModule_setMember, isModule, Ledger.object?_allocate, if_pos rfl]
    obtain ⟨walked, last⟩ := walk_enterAll (fun part there => full part (List.mem_cons_of_mem _ there)) below.1 below.2
    have grows := grows_enterAll rest (s.enter p name).1 (s.enter p name).2
    have kind := (grows.kinds _ (issued_of_isModule below.1)).trans below.1
    have member := grows.members _ _ _ (member?_enter module name)
    exact ⟨(walk_cons (full name List.mem_cons_self)).mpr ⟨_, member, kind, walked⟩, last⟩

theorem Plain.isClearFrom (plain : s.Plain t) : ∀ (parts : List String) (p : Handle),
    t.isClearFrom p parts = s.isClearFrom p parts
  | [], _ => rfl
  | name :: rest, p => by
    rw [Store.isClearFrom, Store.isClearFrom, plain.member?]
    cases s.member? p name with
    | none => rfl
    | some c => simp only [plain.isModule, plain.isClearFrom rest c]

theorem Plain.isClear (plain : s.Plain t) (path : String) : t.isClear path = s.isClear path := plain.isClearFrom _ _

/-! ### The tree of namespaces -/

/-- The namespaces form a tree below the main one: a namespace is younger than the one it is in. -/
structure Tree (s : Store) : Prop where
  main : s.isModule mainModule = true
  members : ∀ p name h, s.member? p name = some h → s.Issued h
  younger : ∀ p name h, s.member? p name = some h → s.isModule h = true → p.raw < h.raw

theorem Tree.plain (tree : s.Tree) (plain : s.Plain t) : t.Tree where
  main := (plain.isModule _).trans tree.main
  members p name h there := (tree.members p name h ((plain.member? p name).symm.trans there)).mono plain.last
  younger p name h there module :=
    tree.younger p name h ((plain.member? p name).symm.trans there) ((plain.isModule h).symm.trans module)

/-- Anything but a namespace may be put into a namespace. -/
theorem Tree.setMember (tree : s.Tree) (p : Handle) (name : String) {v : Handle} (issued : s.Issued v)
    (other : s.isModule v = false) : (s.setMember p name v).Tree where
  main := (isModule_setMember s p name v _).trans tree.main
  members k n h there := by
    rw [member?_setMember] at there
    rw [issued_setMember]
    split at there
    · rwa [← Option.some.inj there]
    · exact tree.members k n h there
  younger k n h there module := by
    rw [member?_setMember] at there
    rw [isModule_setMember] at module
    split at there
    · rw [Option.some.inj there, module] at other
      cases other
    · exact tree.younger k n h there module

theorem Tree.enter (tree : s.Tree) (issued : s.Issued p) (name : String) :
    (s.enter p name).2.Tree ∧ (s.enter p name).2.Issued (s.enter p name).1 := by
  cases member : s.member? p name with
  | some h =>
    rw [enter_of_member member]
    exact ⟨tree, tree.members p name h member⟩
  | none =>
    have grows := grows_enter s p name
    have made := issued_enter_of_none member
    refine ⟨?_, made⟩
    have there_or : ∀ k n h, (s.enter p name).2.member? k n = some h →
        (k = p ∧ h = s.nextHandle) ∨ s.member? k n = some h := by
      intro k n h there
      rw [enter_of_none member, member?_setMember, member?_allocate (childless_module name)] at there
      split at there
      · next new => exact .inl ⟨new.2.1, (Option.some.inj there).symm⟩
      · exact .inr there
    have fresh : (s.enter p name).1 = s.nextHandle := by rw [enter_of_none member]
    constructor
    · exact (grows.kinds _ (issued_of_isModule tree.main)).trans tree.main
    · intro k n h there
      rcases there_or k n h there with ⟨-, rfl⟩ | old
      · rwa [← fresh]
      · exact grows.issued h (tree.members k n h old)
    · intro k n h there module
      rcases there_or k n h there with ⟨rfl, rfl⟩ | old
      · exact Nat.lt_succ_of_le issued
      · exact tree.younger k n h old ((grows.kinds h (tree.members k n h old)).symm.trans module)

theorem Tree.enterAll : ∀ (parts : List String) {s : Store} {p : Handle}, s.Tree → s.Issued p →
    (s.enterAll p parts).2.Tree
  | [], _, _, tree, _ => tree
  | name :: rest, _, _, tree, issued => Tree.enterAll rest (tree.enter issued name).1 (tree.enter issued name).2

theorem Tree.defineModule (tree : s.Tree) (path : String) : (s.defineModule path).2.Tree :=
  Tree.enterAll _ tree (issued_of_isModule tree.main)

/-- Nothing that is put into a namespace stands in the way to it. -/
theorem Tree.walk_setMember (tree : s.Tree) {q : Handle} (v : Handle) (new : String) :
    ∀ {parts : List String} {p : Handle}, (∀ name ∈ parts, name ≠ "") → s.walk p parts = some q →
      p.raw ≤ q.raw ∧ (s.setMember q new v).walk p parts = some q
  | [], p, _, walked => by
    obtain rfl := Option.some.inj walked
    exact ⟨le_rfl, rfl⟩
  | name :: rest, p, full, walked => by
    have nonempty := full name List.mem_cons_self
    obtain ⟨c, member, module, walked'⟩ := (walk_cons nonempty).mp walked
    obtain ⟨le, later⟩ := tree.walk_setMember v new (fun part there => full part (List.mem_cons_of_mem _ there)) walked'
    have lt := (tree.younger p name c member module).trans_le le
    refine ⟨lt.le, (walk_cons nonempty).mpr ⟨c, ?_, (isModule_setMember ..).trans module, later⟩⟩
    rw [member?_setMember, if_neg]
    · exact member
    · rintro ⟨-, rfl, -⟩
      exact lt.false

/-! ### Blocked paths -/

/-- A path that is blocked leads to a member, which is what blocks it or is a namespace from which it is blocked. -/
theorem exists_member_of_blocked {rest : List String} (blocked : s.isClearFrom p (name :: rest) = false) :
    ∃ c, s.member? p name = some c ∧ (s.isModule c = true → s.isClearFrom c rest = false) := by
  cases member : s.member? p name with
  | none =>
    rw [isClearFrom, member] at blocked
    cases blocked
  | some c =>
    rw [isClearFrom_of_member member] at blocked
    refine ⟨c, rfl, fun module => ?_⟩
    rwa [module, Bool.true_and] at blocked

/-- Where something else stands on a path, nothing is found behind it, whatever is added. -/
theorem walk_of_blocked (grows : s.Grows t) (tree : s.Tree) :
    ∀ {parts : List String} {p : Handle}, s.isClearFrom p parts = false → t.walk p parts = none
  | name :: rest, p, blocked => by
    obtain ⟨c, member, behind⟩ := exists_member_of_blocked blocked
    by_contra found
    obtain ⟨h, walked⟩ := Option.ne_none_iff_exists'.mp found
    have nonempty : name ≠ "" := by
      rintro rfl
      cases walked
    obtain ⟨c', member', module, walked'⟩ := (walk_cons nonempty).mp walked
    obtain rfl := Option.some.inj ((grows.members p name c member).symm.trans member')
    rw [grows.kinds c (tree.members p name c member)] at module
    rw [walk_of_blocked grows tree (behind module)] at walked'
    cases walked'

/-- Below something that has no members, there are only new namespaces. -/
theorem enterAll_of_childless : ∀ (parts : List String) {p : Handle} {s : Store}, s.Issued p →
    (∀ name, s.member? p name = none) → (s.enterAll p parts).1 = p ∨ ¬ s.Issued (s.enterAll p parts).1
  | [], _, _, _, _ => .inl rfl
  | name :: rest, p, s, issued, childless => by
    have fresh : (s.enter p name).1 = s.nextHandle := by rw [enter_of_none (childless name)]
    have below := member?_enter_of_none issued (childless name)
    rw [enterAll]
    rcases enterAll_of_childless rest (issued_enter_of_none (childless name)) below with same | new
    · right
      rw [same, fresh]
      exact not_issued_nextHandle s
    · exact .inr fun old => new ((grows_enter s p name).issued _ old)

/-- Behind something else than a namespace, a definition adds to no namespace that was there. -/
theorem enterAll_of_blocked (tree : s.Tree) :
    ∀ {parts : List String} {p : Handle}, s.isClearFrom p parts = false → s.isModule (s.enterAll p parts).1 = false
  | name :: rest, p, blocked => by
    obtain ⟨c, member, behind⟩ := exists_member_of_blocked blocked
    rw [enterAll, enter_of_member member]
    cases module : s.isModule c with
    | true => exact enterAll_of_blocked tree (behind module)
    | false =>
      have childless := member?_of_not_module module
      rcases enterAll_of_childless rest (tree.members p name c member) childless with same | new
      · rw [same]
        exact module
      · exact eq_false_of_ne_true fun old => new (issued_of_isModule old)

/-! ### Definitions are found -/

theorem resolveModule_eq_ok_iff (dotted : IsDotted path) :
    s.resolveModule path = .ok ⟨path, h⟩ ↔ s.walk mainModule (pathParts path) = some h := by
  rw [resolveModule, resolvedParts_eq_pathParts dotted]
  cases s.walk mainModule (pathParts path) with
  | none => exact iff_of_false (by simp) (by simp)
  | some k => simp

theorem path_of_resolveModule {m : ModuleRef} (found : s.resolveModule path = .ok m) : m.path = path := by
  unfold resolveModule at found
  split at found
  · rw [← Except.ok.inj found]
  · cases found

/-- **A namespace that is defined is found**, unless something else stands on its path. -/
theorem Tree.resolveModule_defineModule (tree : s.Tree) (dotted : IsDotted path) :
    (s.defineModule path).2.resolveModule path = .ok ⟨path, (s.defineModule path).1⟩ ↔ s.isClear path = true := by
  rw [resolveModule_eq_ok_iff dotted]
  constructor
  · intro walked
    by_contra blocked
    rw [Store.defineModule, walk_of_blocked (grows_enterAll _ _ s) tree (eq_false_of_ne_true blocked)] at walked
    cases walked
  · exact fun clear => (walk_enterAll (fun _ => ne_empty_of_mem_pathParts) tree.main clear).1

/-- What is found at a path is not made again. -/
theorem defineModule_of_resolveModule (dotted : IsDotted path) (found : s.resolveModule path = .ok ⟨path, h⟩) :
    s.defineModule path = (h, s) :=
  enterAll_of_walk (fun _ => ne_empty_of_mem_pathParts) ((resolveModule_eq_ok_iff dotted).mp found)

/-- What resolving a function goes through. -/
theorem resolveFunction_eq_ok : s.resolveFunction path = .ok h ↔ ∃ m, s.resolveModule (splitPath path).1 = .ok m ∧
    s.member? m.handle (splitPath path).2 = some h ∧
      ∃ own captured body, s.object? h = some (.function own captured body) := by
  unfold resolveFunction
  show Except.bind (s.resolveModule (splitPath path).1)
    (fun m => Except.bind (s.resolveMember m (splitPath path).2) _) = _ ↔ _
  cases s.resolveModule (splitPath path).1 with
  | error e => exact iff_of_false (by simp [Except.bind]) (by simp)
  | ok m =>
    simp only [Except.bind, resolveMember, Except.ok.injEq, exists_eq_left']
    cases s.member? m.handle (splitPath path).2 with
    | none => exact iff_of_false (by simp) (by simp)
    | some k =>
      simp only [Option.some.injEq]
      split
      · next own captured body found =>
        refine ⟨fun same => ?_, ?_⟩
        · obtain rfl := Except.ok.inj same
          exact ⟨rfl, own, captured, body, found⟩
        · rintro ⟨rfl, -⟩
          rfl
      · next other =>
        refine iff_of_false (by simp) ?_
        rintro ⟨rfl, own, captured, body, found⟩
        exact other own captured body found

theorem resolveFunction_memberPath (dotted : IsDotted path) (plain : '.' ∉ name.toList) :
    s.resolveFunction (memberPath path name) = .ok h ↔ ∃ q, s.walk mainModule (pathParts path) = some q ∧
      s.member? q name = some h ∧ ∃ own captured body, s.object? h = some (.function own captured body) := by
  rw [resolveFunction_eq_ok, splitPath_memberPath plain]
  constructor
  · rintro ⟨m, found, there⟩
    obtain rfl := path_of_resolveModule found
    exact ⟨m.handle, (resolveModule_eq_ok_iff dotted).mp found, there⟩
  · rintro ⟨q, walked, there⟩
    exact ⟨⟨path, q⟩, (resolveModule_eq_ok_iff dotted).mpr walked, there⟩

/-- A function that is put at a path is found there, unless something else than namespaces stands on the way. -/
theorem Tree.resolveFunction_defineMember (tree : s.Tree) (dotted : IsDotted path) (plain : '.' ∉ name.toList)
    {own : String} {captured : List CellId} {body : List Handle → Program}
    (found : s.object? h = some (.function own captured body)) :
    (s.defineMember path name h).resolveFunction (memberPath path name) = .ok h ↔ s.isClear path = true := by
  have full : ∀ part ∈ pathParts path, part ≠ "" := fun _ => ne_empty_of_mem_pathParts
  have grows : s.Grows (s.defineModule path).2 := grows_enterAll _ _ s
  have put : s.defineMember path name h = (s.defineModule path).2.setMember (s.defineModule path).1 name h := rfl
  rw [resolveFunction_memberPath dotted plain, put]
  constructor
  · rintro ⟨q, walked, -⟩
    by_contra blocked
    have other : s.isModule (s.defineModule path).1 = false := enterAll_of_blocked tree (eq_false_of_ne_true blocked)
    have later := grows.setMember (member?_of_not_module other name) h
    rw [walk_of_blocked later tree (eq_false_of_ne_true blocked)] at walked
    cases walked
  · intro clear
    obtain ⟨walked, module⟩ := walk_enterAll full tree.main clear
    have there : (s.defineModule path).2.object? h = some (.function own captured body) :=
      grows.others h _ (fun _ _ same => by cases same) found
    refine ⟨_, ((tree.defineModule path).walk_setMember h name full walked).2, ?_, own, captured, body, ?_⟩
    · rw [member?_setMember]
      exact if_pos ⟨module, rfl, rfl⟩
    · rw [object?_setMember]
      split
      · next same =>
        rw [← same, there]
        rfl
      · exact there

/-- **A function that is defined is found**, unless something else than namespaces stands on the way to it. -/
theorem Tree.resolveFunction_defineFunction (tree : s.Tree) (dotted : IsDotted path) (plain : '.' ∉ name.toList)
    (captured : List CellId) (body : List Handle → Program) :
    (s.defineFunction path name captured body).2.resolveFunction (memberPath path name) =
      .ok (s.defineFunction path name captured body).1 ↔ s.isClear path = true := by
  -- the function is there before its namespace
  have made : s.Plain (s.allocate (.function name captured body)).2 := plain_allocate fun _ _ same => by cases same
  rw [← made.isClear path]
  exact (tree.plain made).resolveFunction_defineMember dotted plain (Ledger.object?_allocate_self s _)

end Store

end ForeignBridge
