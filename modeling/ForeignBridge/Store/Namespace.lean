import ForeignBridge.Store
import ForeignBridge.Text.Split

/-! # Namespaces

Namespaces form a tree below the main one and are reached by dotted paths. Defining goes down a path and creates
what is missing; empty parts of the path are skipped. A member of any kind is followed on the way, but members can
be added only to namespaces. -/

namespace ForeignBridge

namespace Store

/-- The member of a namespace under a name. -/
def member? (s : Store) (parent : Handle) (name : String) : Option Handle :=
  match s.object? parent with
  | some (.module _ members) => members.get? name
  | _ => none

/-- The slot holds a namespace. -/
def isModule (s : Store) (h : Handle) : Bool :=
  match s.object? h with
  | some (.module _ _) => true
  | _ => false

/-- The member of a namespace under a name, if it is a namespace itself. -/
def submodule? (s : Store) (parent : Handle) (name : String) : Option Handle :=
  (s.member? parent name).filter s.isModule

/-- Puts a member into a namespace; without effect on a slot that holds none. -/
def setMember (parent : Handle) (name : String) (value : Handle) (s : Store) : Store :=
  s.updateSlot parent fun slot =>
    match slot.object with
    | .module own members => { slot with object := .module own (members.insert name value) }
    | _ => slot

/-- The parts of a dotted path that are not empty. -/
def pathParts (path : String) : List String :=
  ((Text.splitDots path.toList).filter (!·.isEmpty)).map String.ofList

/-- The member under a name, or else a new namespace put there. -/
def enter (parent : Handle) (name : String) (s : Store) : Handle × Store :=
  match s.member? parent name with
  | some h => (h, s)
  | none =>
    let (child, s) := s.allocate (.module name [])
    (child, s.setMember parent name child)

/-- Enters the parts of a path one after the other. -/
def enterAll (parent : Handle) (parts : List String) (s : Store) : Handle × Store :=
  match parts with
  | [] => (parent, s)
  | name :: rest =>
    let (child, s) := s.enter parent name
    s.enterAll child rest

/-- What stands at a dotted path below the main namespace, with the namespaces that were missing. -/
def defineModule (path : String) (s : Store) : Handle × Store := s.enterAll mainModule (pathParts path)

/-- Puts a member into what stands at a dotted path. -/
def defineMember (path name : String) (value : Handle) (s : Store) : Store :=
  let (parent, s) := s.defineModule path
  s.setMember parent name value

/-- A new function at `path.name`. It becomes a holder of the cells it captures. -/
def defineFunction (path name : String) (captured : List CellId) (body : List Handle → Program) (s : Store) :
    Handle × Store :=
  let (h, s) := s.allocate (.function name captured body)
  (h, s.defineMember path name h)

/-- A new slot for data at `path.name`. -/
def defineGlobal (path name : String) (data : Datum CellId) (s : Store) : Handle × Store :=
  let (h, s) := s.construct data
  (h, s.defineMember path name h)

end Store

end ForeignBridge
