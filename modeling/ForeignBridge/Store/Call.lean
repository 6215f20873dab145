import ForeignBridge.Store.Collect
import ForeignBridge.Store.Describe
import ForeignBridge.Store.Family
import ForeignBridge.Store.Namespace

/-! # Reading fields and calling functions

Reading a field and calling a function may raise a fault; they then give the null handle. A function that ends with
an error message raises it as a fault.

While a function runs, it holds the cells it captured, the cells in the data it has inspected and the cells it has made;
when it ends, it releases those it has not given up. Functions may call one another, as deep as the process has stack
for; a call that goes deeper ends the process. -/

namespace ForeignBridge

namespace Store

/-- The data in a slot; a slot that holds no plain data shows as unknown. The crossing is noted. -/
def inspect (h : Handle) (s : Store) : Datum CellId × Store :=
  let s := s.note .inspect
  match s.object? h with
  | some (.value data) => (data, s)
  | _ => (.unknown, s)

/-- The field of an object or the member of a namespace. -/
def field? (s : Store) (h : Handle) (name : String) : Option Handle :=
  match s.object? h with
  | some (.structured _ fields) => fields.get? name
  | some (.module _ members) => members.get? name
  | _ => none

/-- Reads a field; one that is missing raises a fault. -/
def readField (h : Handle) (name : String) (s : Store) : Handle × Store :=
  let s := s.note .readField
  match s.field? h name with
  | some value => (value, s)
  | none => (Handle.null, s.raiseAbout h fun what => s!"FieldError: {what} has no field {name}")

/-- The slot holds a function. -/
def isCallable (s : Store) (h : Handle) : Bool :=
  match s.object? h with
  | some (.function _ _ _) => true
  | _ => false

/-- A function on its way: the store and the cells that the function holds. -/
structure Running where
  store : Store
  held : List CellId

namespace Running

/-- The data with positions replaced by the cells that are held there. Data that names a position beyond them is
unknown. -/
def resolve (r : Running) (data : Datum Nat) : Datum CellId :=
  if data.references.all (· < r.held.length) then data.map fun i => r.held.getD i ⟨0⟩ else .unknown

/-- The data of a slot, whose cells are held from now on. -/
def inspect (r : Running) (h : Handle) : Datum Nat × Running :=
  let (data, s) := r.store.inspect h
  let held := r.held ++ data.references
  (data.map held.idxOf, ⟨s.retainAll data.references, held⟩)

/-- Goes on with the store that an operation leaves. -/
def after {α : Type} (r : Running) (result : α × Store) : α × Running := (result.1, { r with store := result.2 })

/-- Goes on with one more cell. -/
def taking (r : Running) (made : CellId × Store) : Unit × Running := ((), ⟨made.2, r.held ++ [made.1]⟩)

/-- Binds the cell at a position, if there is one; the reply is what it is bound to already. -/
def bind (r : Running) (i : Nat) (h : Handle) : Option Handle × Running :=
  match r.held[i]? with
  | none => (none, r)
  | some c =>
    match r.store.bind c h with
    | .ok s => (none, { r with store := s })
    | .error existing => (some existing, r)

/-- Releases the cell at a position, if there is one. -/
def release (r : Running) (i : Nat) : Running :=
  match r.held[i]? with
  | none => r
  | some c => ⟨r.store.release c, r.held.eraseIdx i⟩

/-- Answers a request; calls go through `callee`. -/
def answer (callee : Handle → List Handle → Store → Handle × Store) (r : Running) :
    (request : Request) → request.Reply × Running
  | .construct data => r.after (r.store.construct (r.resolve data))
  | .create type fields => r.after (r.store.create type (fields.map fun (name, data) => (name, r.resolve data)))
  | .inspect h => r.inspect h
  | .describe h => r.after (r.store.describe h)
  | .rootCount h => (r.store.rootCount h, r)
  | .isLive h => (r.store.isLive h, r)
  | .isCallable h => (r.store.isCallable h, r)
  | .typeOf h => (r.store.typeOf h, r)
  | .submodule h name => (r.store.submodule? h name, r)
  | .member h name => (r.store.member? h name, r)
  | .family name => (r.store.family? name, r)
  | .version => (r.store.version, r)
  | .readField h name => r.after (r.store.readField h name)
  | .call f args => r.after (callee f args r.store)
  | .applyFamily head params => r.after (r.store.applyFamily head params)
  | .provideFamily name => r.after (r.store.provideFamily name)
  | .defineModule path => r.after (r.store.defineModule path)
  | .defineGlobal path name data => r.after (r.store.defineGlobal path name (r.resolve data))
  | .root h => r.after ((), r.store.root h)
  | .unroot h => r.after ((), r.store.unroot h)
  | .raise data => r.after ((), r.store.raise (r.resolve data))
  | .pendingFault => r.after r.store.pendingFault
  | .clearFault => r.after ((), r.store.clearFault)
  | .recordCalls => r.after ((), r.store.recordCalls)
  | .callLog => (r.store.callLog.map Event.name, r)
  | .collect => r.after r.store.collect
  | .hold h => r.taking (r.store.hold h)
  | .newCell => r.taking r.store.newCell
  | .bind i h => r.bind i h
  | .read i => (((r.held[i]?).map r.store.read).getD Handle.null, r)
  | .release i => ((), r.release i)

end Running

/-- Runs a program to its end. -/
def run (callee : Handle → List Handle → Store → Handle × Store) :
    Program → Running → Except String Handle × Running
  | .done h, r => (.ok h, r)
  | .fail message, r => (.error message, r)
  | .ask request next, r =>
    let (reply, r) := r.answer callee request
    run callee (next reply) r
  | .define path name captured body next, r =>
    let (h, r) := r.after (r.store.defineFunction path name (captured.filterMap (r.held[·]?)) body)
    run callee (next h) r

/-- Calls a function where calls may nest `depth` levels deep; anything else raises a fault. -/
def callWithin : Nat → Handle → List Handle → Store → Handle × Store
  | 0, _, _, s => (Handle.null, s.halt)
  | depth + 1, f, args, s =>
    let s := s.note .call
    match s.object? f with
    | some (.function _ captured body) =>
      let (result, r) := run (callWithin depth) (body args) ⟨s.retainAll captured, captured⟩
      let s := r.store.releaseAll r.held
      match result with
      | .ok h => (h, s)
      | .error message => (Handle.null, s.raiseMessage message)
    | _ => (Handle.null, s.raiseAbout f fun what => s!"MethodError: {what} is not callable")

/-- Calls a function, with all the stack of the process. -/
def call (f : Handle) (args : List Handle) (s : Store) : Handle × Store := s.callWithin s.stack f args

end Store

end ForeignBridge
