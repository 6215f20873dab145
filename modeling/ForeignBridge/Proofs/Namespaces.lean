import ForeignBridge.Bridge
import ForeignBridge.Proofs.Custody
import ForeignBridge.Proofs.Paths
import ForeignBridge.Proofs.Tracing

/-! # Definitions are found where they were put

In every store that a program comes to, what is defined on a clear path is found there, also after any run that defines
nothing (`definitions_found`).

* A program takes a `Course`: operations that leave the namespaces alone (`Plain`), collections, and definitions, if it is
  seen to define anything (`runDefines`). `course_run` says so by induction on the program, and on the depth of calls.
* Every course keeps the namespaces a `Tree` (`Course.tree`). So a path can be judged in every store that a program comes
  to.
* A course without definitions leaves everything as it is that has a name (`Course.retains`): nothing else is put into a
  namespace, and what has a name is traced by collections. -/

namespace ForeignBridge

/-- The request puts a member into a namespace. -/
def Request.defines : Request → Bool
  | .defineModule _ | .defineGlobal _ _ _ => true
  | _ => false

namespace Store

variable {s t w : Store} {h p q : Handle} {path name : String} {defining : Prop}

/-! ### Operations that define nothing -/

theorem plain_note (e : Event) : s.Plain (s.note e) := plain_of_slots rfl rfl

theorem plain_halt : s.Plain s.halt := plain_of_slots rfl rfl

theorem plain_root (h : Handle) : s.Plain (s.root h) := plain_of_objects (object?_root s h) (lastId_root s h).ge

theorem plain_unroot (h : Handle) : s.Plain (s.unroot h) := plain_of_objects (object?_unroot s h) (lastId_unroot s h).ge

theorem plain_retainAll (cs : List CellId) : s.Plain (s.retainAll cs) :=
  plain_of_slots (Ledger.slots_retainAll cs s) (lastId_retainAll cs s)

theorem plain_release (c : CellId) : s.Plain (s.release c) :=
  plain_of_objects (object?_release s c) (lastId_release s c).ge

theorem plain_releaseAll : ∀ (cs : List CellId) {s : Store}, s.Plain (s.releaseAll cs)
  | [], _ => .refl _
  | c :: cs, _ => (plain_release c).trans (plain_releaseAll cs)

theorem plain_hold (h : Handle) : s.Plain (s.hold h).2 := by
  rw [hold_eq]
  exact (plain_root h).trans (plain_of_slots rfl rfl)

theorem plain_bind {c : CellId} (bound : s.bind c h = .ok t) : s.Plain t := by
  obtain ⟨_, rfl⟩ := bind_eq_ok.mp bound
  exact (plain_root h).trans (plain_of_slots rfl rfl)

theorem plain_construct (data : Datum CellId) : s.Plain (s.construct data).2 :=
  plain_allocate fun _ _ same => by cases same

theorem plain_raise (data : Datum CellId) : s.Plain (s.raise data) :=
  (plain_construct data).trans (plain_of_slots rfl rfl)

theorem plain_raiseAbout (h : Handle) (message : String → String) : s.Plain (s.raiseAbout h message) := by
  obtain ⟨_, _, same⟩ | ⟨_, same⟩ := s.raiseAbout_cases h message
  · rw [same]
    exact plain_raise _
  · rw [same]
    exact plain_halt

theorem plain_describe (h : Handle) : s.Plain (s.describe h).2 := by
  apply (plain_note .describe).trans
  unfold describe
  dsimp only
  cases (s.note .describe).description h with
  | some text => exact .refl _
  | none => exact plain_halt

theorem plain_fields : ∀ (fields : List (String × Datum CellId)) (members : Keyed Handle) {s : Store},
    s.Plain (fields.foldl (fun (members, s) (name, data) =>
      let (h, s) := s.construct data
      (Keyed.insert name h members, s)) (members, s)).2
  | [], _, _ => .refl _
  | (_, data) :: fields, _, _ => (plain_construct data).trans (plain_fields fields _)

theorem plain_create (type : Handle) (fields : List (String × Datum CellId)) : s.Plain (s.create type fields).2 :=
  (plain_fields fields []).trans (plain_allocate fun _ _ same => by cases same)

theorem plain_provideFamily (name : String) : s.Plain (s.provideFamily name).2 := by
  obtain ⟨_, _, same⟩ | ⟨_, same⟩ := s.provideFamily_cases name
  · rw [same]
    exact .refl _
  · rw [same]
    exact plain_pushSlot fun _ _ same => by cases same

theorem plain_applyFamily (head : Handle) (params : List Handle) : s.Plain (s.applyFamily head params).2 := by
  apply (plain_note .applyFamily).trans
  have ways := s.appliesFamily head params
  generalize s.applyFamily head params = result at ways ⊢
  cases ways with
  | refused => exact plain_raise _
  | itself | shared => exact .refl _
  | made => exact plain_pushSlot fun _ _ same => by cases same

theorem plain_readField (h : Handle) (name : String) : s.Plain (s.readField h name).2 := by
  apply (plain_note .readField).trans
  obtain ⟨_, _, same⟩ | ⟨_, _, same⟩ := s.readField_cases h name
  · rw [same]
    exact .refl _
  · rw [same]
    exact plain_raiseAbout _ _

theorem plain_inspect (r : Running) (h : Handle) : r.store.Plain (r.inspect h).2.store :=
  by
  have same := inspect_snd r.store h
  exact ((plain_note .inspect).trans (plain_of_slots (congrArg slots same) (congrArg lastId same))).trans
    (plain_retainAll _)

theorem plain_running_bind (r : Running) (i : ℕ) (h : Handle) : r.store.Plain (r.bind i h).2.store := by
  obtain same | ⟨c, _, t, bound, same⟩ := r.bind_cases i h
  · rw [same]
    exact .refl _
  · rw [same]
    exact plain_bind bound

theorem plain_running_release (r : Running) (i : ℕ) : r.store.Plain (r.release i).store := by
  obtain same | ⟨_, same⟩ := r.release_cases i
  · rw [same]
    exact .refl _
  · rw [same]
    exact plain_release _

/-! ### Courses of a store -/

/-- What goes on in a store, as far as its namespaces are concerned. Members are put into namespaces only where
something may be defined. -/
inductive Course (defining : Prop) (s : Store) : Store → Prop where
  | refl : Course defining s s
  | plain {t w : Store} (before : Course defining s t) (plain : t.Plain w) : Course defining s w
  | collect {t : Store} (before : Course defining s t) : Course defining s t.collect.2
  | defineModule {t : Store} (before : Course defining s t) (allowed : defining) (path : String) :
      Course defining s (t.defineModule path).2
  /-- Functions and globals are put into namespaces. -/
  | setMember {t : Store} (before : Course defining s t) (allowed : defining) (p : Handle) (name : String) {v : Handle}
      (issued : t.Issued v) (other : t.isModule v = false) : Course defining s (t.setMember p name v)

theorem Plain.course (plain : s.Plain t) : s.Course defining t := .plain .refl plain

theorem Course.trans (first : s.Course defining t) (second : t.Course defining w) : s.Course defining w := by
  induction second with
  | refl => exact first
  | plain _ plain ih => exact ih.plain plain
  | collect _ ih => exact ih.collect
  | defineModule _ allowed path ih => exact ih.defineModule allowed path
  | setMember _ allowed p name issued other ih => exact ih.setMember allowed p name issued other

/-- Something other than a namespace is made, and put at a path. -/
theorem course_define (allowed : defining) {object : Object} (other : ∀ own members, object ≠ .module own members)
    (path name : String) :
    s.Course defining ((s.allocate object).2.defineMember path name (s.allocate object).1) := by
  have made : s.Plain (s.allocate object).2 := plain_allocate other
  have found := Ledger.object?_allocate_self s object
  have grows := grows_enterAll (pathParts path) mainModule (s.allocate object).2
  refine (made.course.defineModule allowed path).setMember allowed _ name ?_ ?_
  · exact grows.issued _ (issued_of_object? found)
  · refine (grows.kinds _ (issued_of_object? found)).trans (eq_false_of_ne_true fun module => ?_)
    obtain ⟨own, members, found'⟩ := isModule_iff.mp module
    exact other own members (Option.some.inj (found.symm.trans found'))

/-! ### Runs that define nothing -/

/-- Something is defined while the program runs, be it by the program or in a call that it makes. -/
def runDefines (callee : Handle → List Handle → Store → Handle × Store) (nested : Handle → List Handle → Store → Bool) :
    Program → Running → Bool
  | .done _, _ => false
  | .fail _, _ => false
  | .ask request next, r =>
    let within :=
      match request with
      | .call f args => nested f args r.store
      | _ => false
    let (reply, later) := r.answer callee request
    request.defines || within || runDefines callee nested (next reply) later
  | .define _ _ _ _ _, _ => true

/-- Something is defined in a call that may make calls `depth` levels deep. -/
def callDefinesWithin : Nat → Handle → List Handle → Store → Bool
  | 0, _, _, _ => false
  | depth + 1, f, args, s =>
    let s := s.note .call
    match s.object? f with
    | some (.function _ captured body) =>
      runDefines (callWithin depth) (callDefinesWithin depth) (body args) ⟨s.retainAll captured, captured⟩
    | _ => false

/-- Something is defined in a call. -/
def callDefines (f : Handle) (args : List Handle) (s : Store) : Bool := callDefinesWithin s.stack f args s

section runs

variable {callee : Handle → List Handle → Store → Handle × Store} {nested : Handle → List Handle → Store → Bool}

/-- A request that is no call takes its course. -/
theorem course_answer (r : Running) {request : Request} (quiet : ∀ f args, request ≠ .call f args)
    (allowed : request.defines = true → defining) : r.store.Course defining (r.answer callee request).2.store := by
  have unmoved {t : Store} (same : t.slots = r.store.slots) (last : t.lastId = r.store.lastId) :
      r.store.Course defining t := (plain_of_slots same last).course
  cases request with
  | call f args => exact absurd rfl (quiet f args)
  | rootCount | isLive | isCallable | typeOf | submodule | member | family | version | callLog | read => exact .refl
  | construct data => exact (plain_construct _).course
  | create type fields => exact (plain_create _ _).course
  | inspect h => exact (plain_inspect r h).course
  | describe h => exact (plain_describe h).course
  | pendingFault | clearFault | recordCalls | newCell => exact unmoved rfl rfl
  | readField h name => exact (plain_readField h name).course
  | applyFamily head params => exact (plain_applyFamily head params).course
  | provideFamily name => exact (plain_provideFamily name).course
  | defineModule path => exact .defineModule .refl (allowed rfl) path
  | defineGlobal path name data => exact course_define (allowed rfl) (fun _ _ same => by cases same) path name
  | root h => exact (plain_root h).course
  | unroot h => exact (plain_unroot h).course
  | raise data => exact (plain_raise _).course
  | collect => exact .collect .refl
  | hold h => exact (plain_hold h).course
  | bind i h => exact (plain_running_bind r i h).course
  | release i => exact (plain_running_release r i).course

/-- Calls through `callee` take their course; `nested` tells whether they define something. -/
def CallsTakeCourse (defining : Prop) (callee : Handle → List Handle → Store → Handle × Store)
    (nested : Handle → List Handle → Store → Bool) : Prop :=
  ∀ f args s, (nested f args s = true → defining) → s.Course defining (callee f args s).2

/-- **A program takes its course**, and defines nothing unless it is seen to. -/
theorem course_run (calls : CallsTakeCourse defining callee nested) (program : Program) :
    ∀ {r : Running}, (runDefines callee nested program r = true → defining) →
      r.store.Course defining (run callee program r).2.store := by
  induction program with
  | done | fail => exact fun _ => .refl
  | ask request next ih =>
    intro r allowed
    have later : (r.answer callee request).2.store.Course defining
        (run callee (next (r.answer callee request).1) (r.answer callee request).2).2.store :=
      ih _ fun seen => allowed (by simp [runDefines, seen])
    refine Course.trans ?_ later
    rcases request.quiet_or_call with quiet | ⟨f, args, rfl⟩
    · exact course_answer r quiet fun seen => allowed (by simp [runDefines, seen])
    · exact calls f args r.store fun seen => allowed (by simp [runDefines, seen])
  | define path name captured body next _ ih =>
    intro r allowed
    have permitted := allowed rfl
    have defined : r.store.Course defining (r.store.defineFunction path name (captured.filterMap (r.held[·]?)) body).2 :=
      course_define permitted (fun _ _ same => by cases same) path name
    exact defined.trans (ih _ (r := ⟨_, r.held⟩) fun _ => permitted)

theorem course_callWithin (depth : ℕ) : CallsTakeCourse defining (callWithin depth) (callDefinesWithin depth) := by
  induction depth with
  | zero => exact fun _ _ _ _ => plain_halt.course
  | succ depth ih =>
    intro f args s allowed
    have noted : s.Plain (s.note .call) := plain_note _
    rcases (s.note .call).function_or_other f with ⟨name, captured, body, found⟩ | other
    · rw [callWithin_function found]
      have entered : s.Course defining ((s.note .call).retainAll captured) :=
        (noted.trans (plain_retainAll captured)).course
      have ran := course_run ih (body args) (r := ⟨(s.note .call).retainAll captured, captured⟩) fun seen =>
        allowed (by rw [callDefinesWithin, found]; exact seen)
      generalize run (callWithin depth) (body args) ⟨(s.note .call).retainAll captured, captured⟩ = ended at ran ⊢
      obtain ⟨outcome, r⟩ := ended
      have left := (entered.trans ran).plain (plain_releaseAll r.held)
      cases outcome with
      | ok h => exact left
      | error message => exact left.plain (plain_raise _)
    · obtain ⟨_, same⟩ := callWithin_of_not_function depth args other
      rw [same]
      exact (noted.trans (plain_raiseAbout _ _)).course

theorem course_call : CallsTakeCourse defining call callDefines := fun f args s => course_callWithin s.stack f args s

end runs

/-! ### What every course keeps -/

theorem object?_of_collect {object : Object} (found : s.collect.2.object? h = some object) :
    s.object? h = some object := by
  rw [object?_collect] at found
  obtain ⟨slot, hs, ho⟩ := object?_eq_some.mp found
  exact object?_eq_some.mpr ⟨slot, slot?_of_slot?_sweep hs, ho⟩

theorem lastId_collect (s : Store) : s.collect.2.lastId = s.lastId := by
  rw [collect_eq]
  exact (apply_releaseAll Store.lastId lastId_release _ _).trans (lastId_sweep s)

theorem Tree.collect (tree : s.Tree) : s.collect.2.Tree where
  main := by
    rw [isModule, object?_collect_of_traced .main]
    exact tree.main
  members p name h there := by
    obtain ⟨own, members, found, there⟩ := member?_eq_some.mp there
    have issued := tree.members p name h (member?_eq_some.mpr ⟨own, members, object?_of_collect found, there⟩)
    rwa [Issued, lastId_collect]
  younger p name h there module := by
    obtain ⟨own, members, found, there⟩ := member?_eq_some.mp there
    obtain ⟨own', members', found'⟩ := isModule_iff.mp module
    exact tree.younger p name h (member?_eq_some.mpr ⟨own, members, object?_of_collect found, there⟩)
      (isModule_iff.mpr ⟨own', members', object?_of_collect found'⟩)

theorem Course.tree (course : s.Course defining t) (tree : s.Tree) : t.Tree := by
  induction course with
  | refl => exact tree
  | plain _ plain ih => exact ih.plain plain
  | collect _ ih => exact ih.collect
  | defineModule _ _ path ih => exact ih.defineModule path
  | setMember _ _ p name issued other ih => exact ih.setMember p name issued other

theorem tree_ofVersion (version : Version) (stack : ℕ) : (ofVersion version stack).Tree := by
  have none (p : Handle) (name : String) (h : Handle) : (ofVersion version stack).member? p name ≠ some h := by
    intro there
    obtain ⟨own, members, found, there⟩ := member?_eq_some.mp there
    obtain ⟨slot, hs, ho⟩ := object?_eq_some.mp found
    obtain ⟨-, rfl⟩ := Ledger.slot?_ofVersion hs
    cases ho
    cases there
  exact ⟨rfl, fun p name h there => absurd there (none p name h), fun p name h there => absurd there (none p name h)⟩

/-! ### What is found goes on being found -/

/-- The slots that names lead to from the main namespace. -/
inductive Named (s : Store) : Handle → Prop where
  | main : Named s mainModule
  | member {p h : Handle} {name : String} (named : Named s p) (there : s.member? p name = some h) : Named s h

theorem Named.traced (named : s.Named h) : s.Traced h := by
  induction named with
  | main => exact .main
  | member _ there traced =>
    obtain ⟨own, members, found, there⟩ := member?_eq_some.mp there
    exact .reference traced found (List.mem_map_of_mem (Keyed.mem_of_get? there))

/-- Whatever has a name stays as it is. -/
def Retains (s t : Store) : Prop := ∀ h object, s.Named h → s.object? h = some object → t.object? h = some object

theorem Retains.member (retains : s.Retains t) (named : s.Named p) (there : s.member? p name = some h) :
    t.member? p name = some h := by
  obtain ⟨own, members, found, there⟩ := member?_eq_some.mp there
  exact member?_eq_some.mpr ⟨own, members, retains p _ named found, there⟩

theorem Retains.named (retains : s.Retains t) (named : s.Named h) : t.Named h := by
  induction named with
  | main => exact .main
  | member named there ih => exact .member ih (retains.member named there)

/-- **Without definitions, whatever has a name stays as it is.** -/
theorem Course.retains (course : s.Course False t) : s.Retains t := by
  induction course with
  | refl => exact fun _ _ _ found => found
  | plain _ plain ih => exact fun h object named found => plain.objects h object (ih h object named found)
  | collect before ih =>
    intro h object named found
    rw [object?_collect_of_traced (Retains.named ih named).traced]
    exact ih h object named found
  | defineModule _ impossible => exact impossible.elim
  | setMember _ impossible => exact impossible.elim

theorem Retains.walk (retains : s.Retains t) : ∀ {parts : List String} {p : Handle}, (∀ name ∈ parts, name ≠ "") →
    s.Named p → s.walk p parts = some q → s.Named q ∧ t.walk p parts = some q
  | [], p, _, named, walked => by
    obtain rfl := Option.some.inj walked
    exact ⟨named, rfl⟩
  | name :: rest, p, full, named, walked => by
    have nonempty := full name List.mem_cons_self
    obtain ⟨c, there, module, walked'⟩ := (walk_cons nonempty).mp walked
    have named' := named.member there
    obtain ⟨last, later⟩ := retains.walk (fun part there => full part (List.mem_cons_of_mem _ there)) named' walked'
    obtain ⟨own, members, found⟩ := isModule_iff.mp module
    have module' := isModule_iff.mpr ⟨own, members, retains c _ named' found⟩
    exact ⟨last, (walk_cons nonempty).mpr ⟨c, retains.member named there, module', later⟩⟩

theorem Retains.resolveFunction (retains : s.Retains t) (dotted : IsDotted path) (plain : '.' ∉ name.toList)
    (found : s.resolveFunction (memberPath path name) = .ok h) :
    t.resolveFunction (memberPath path name) = .ok h := by
  rw [resolveFunction_memberPath dotted plain] at found ⊢
  obtain ⟨q, walked, there, own, captured, body, object⟩ := found
  obtain ⟨named, walked'⟩ := retains.walk (fun _ => ne_empty_of_mem_pathParts) .main walked
  exact ⟨q, walked', retains.member named there, own, captured, body, retains h _ (named.member there) object⟩

end Store

/-- A function that is found is held. -/
theorem Bridge.functionAt_of_resolveFunction {s : Store} {path : String} {h : Handle}
    (found : s.resolveFunction path = .ok h) (autoConvert : Bool) :
    ∃ c, (functionAt path autoConvert s).1 = .ok (.function c autoConvert) ∧
      (functionAt path autoConvert s).2.read c = h := by
  unfold functionAt holdFunction
  rw [found]
  refine ⟨(s.hold h).1, rfl, ?_⟩
  show (s.hold h).2.read (s.hold h).1 = h
  exact Store.read_of_binding? (s.binding?_hold_self h)

namespace Store

/-- **Definitions are found where they were put**, as long as nothing but namespaces stands on the path. In every store
that a program comes to, a namespace that is defined at a path is found there, and it is not made again; a function that
is defined there is found under its name, also after any run that defines nothing, with its collections and calls. Where
something else stands on the path, neither is found. -/
theorem definitions_found (version : Version) (stack : ℕ) (history : Program) {path : String} (dotted : IsDotted path) :
    let s := (run call history ⟨.ofVersion version stack, []⟩).2.store
    let defined := s.defineModule path
    (defined.2.resolveModule path = .ok ⟨path, defined.1⟩ ↔ s.isClear path = true) ∧
    (s.isClear path = true → defined.2.defineModule path = defined) ∧
    ∀ name captured body, '.' ∉ name.toList →
      let put := s.defineFunction path name captured body
      (put.2.resolveFunction (memberPath path name) = .ok put.1 ↔ s.isClear path = true) ∧
      (s.isClear path = true → ∀ later held, runDefines call callDefines later ⟨put.2, held⟩ = false →
        let t := (run call later ⟨put.2, held⟩).2.store
        t.resolveFunction (memberPath path name) = .ok put.1 ∧
        ∀ autoConvert, ∃ c, (Bridge.functionAt (memberPath path name) autoConvert t).1 = .ok (.function c autoConvert) ∧
          (Bridge.functionAt (memberPath path name) autoConvert t).2.read c = put.1) := by
  intro s defined
  have made : (ofVersion version stack).Course True s :=
    course_run course_call history (r := ⟨.ofVersion version stack, []⟩) fun _ => trivial
  have tree := made.tree (tree_ofVersion version stack)
  have module := tree.resolveModule_defineModule dotted
  refine ⟨module, fun clear => defineModule_of_resolveModule dotted (module.mpr clear), ?_⟩
  intro name captured body plain put
  have function := tree.resolveFunction_defineFunction dotted plain captured body
  refine ⟨function, ?_⟩
  intro clear later held quiet t
  have course : put.2.Course False t :=
    course_run course_call later fun seen => Bool.false_ne_true (quiet.symm.trans seen)
  have found := course.retains.resolveFunction dotted plain (function.mpr clear)
  exact ⟨found, Bridge.functionAt_of_resolveFunction found⟩

/-- A function in a new namespace within one that was there, after a collection. -/
theorem definitions_found_afterCollection :
    let history : Program := .ask (.defineModule "a") .done
    let s := (run call history ⟨.ofVersion (.ofNumbers 1 0 0), []⟩).2.store
    let put := s.defineFunction "a.b" "f" [] fun _ => .done .null
    let later : Program := .ask .collect fun _ => .ask (.call put.1 []) .done
    put.1 = ⟨3⟩ ∧ s.isClear "a.b" = true ∧
      (run call later ⟨put.2, []⟩).2.store.resolveFunction "a.b.f" = .ok ⟨3⟩ := by
  intro history s put later
  have dotted : IsDotted "a.b" := by decide
  have found := definitions_found (.ofNumbers 1 0 0) 10000 history dotted
  have clear : s.isClear "a.b" = true := by decide +kernel
  obtain ⟨-, kept⟩ := found.2.2 "f" [] (fun _ => .done .null) (by decide)
  have quiet : runDefines call callDefines later ⟨put.2, []⟩ = false := by cbv
  exact ⟨by decide +kernel, clear, (kept clear later [] quiet).1⟩

/-- Behind a value nothing is found, and a namespace is made anew each time. -/
theorem definitions_lost_behind_value :
    let history : Program := .ask (.defineGlobal "" "a" (.int 1)) .done
    let s := (run call history ⟨.ofVersion (.ofNumbers 1 0 0), []⟩).2.store
    (s.defineModule "a").2.resolveModule "a" = .error (.moduleNotFound "a") ∧
      (s.defineModule "a.b").1 = ⟨3⟩ ∧ ((s.defineModule "a.b").2.defineModule "a.b").1 = ⟨4⟩ ∧
      (s.defineFunction "a" "f" [] fun _ => .done .null).2.resolveFunction "a.f" = .error (.moduleNotFound "a") := by
  decide +kernel

end Store

end ForeignBridge
