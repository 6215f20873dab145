import ForeignBridge.Bridge.Error
import ForeignBridge.Store.Namespace

/-! # Resolving dotted paths

Resolving only looks: nothing is created on the way, and only namespaces are followed. The empty path stands for the
main namespace; any other path with an empty part leads nowhere. -/

namespace ForeignBridge

/-- A namespace that was found under a path. -/
structure ModuleRef where
  path : String
  handle : Handle
deriving DecidableEq, Repr

/-- The path of a namespace; the main one has a name of its own. -/
def ModuleRef.render (m : ModuleRef) : String := if m.path.isEmpty then "Main" else m.path

namespace Store

/-- Goes down from a namespace by the parts of a path. -/
def walk (s : Store) (parent : Handle) : List String → Option Handle
  | [] => some parent
  | name :: rest =>
    if name.isEmpty then none
    else
      match s.submodule? parent name with
      | none => none
      | some child => s.walk child rest

/-- The parts of a path, of which there are none in the empty path. -/
def resolvedParts (path : String) : List String :=
  if path.isEmpty then [] else (Text.splitDots path.toList).map String.ofList

/-- The namespace at a dotted path. -/
def resolveModule (s : Store) (path : String) : Except BridgeError ModuleRef :=
  match s.walk mainModule (resolvedParts path) with
  | some h => .ok ⟨path, h⟩
  | none => .error (.moduleNotFound path)

/-- The member of a namespace under a name. -/
def resolveMember (s : Store) (m : ModuleRef) (name : String) : Except BridgeError Handle :=
  match s.member? m.handle name with
  | some h => .ok h
  | none => .error (.memberNotFound m.render name)

/-- The path of the namespace and the name of the member, cut at the last dot. -/
def splitPath (path : String) : String × String :=
  match Text.splitLastDot path.toList with
  | some (before, after) => (String.ofList before, String.ofList after)
  | none => ("", path)

/-- The function at a dotted path. -/
def resolveFunction (s : Store) (path : String) : Except BridgeError Handle := do
  let (parent, name) := splitPath path
  let h ← s.resolveMember (← s.resolveModule parent) name
  match s.object? h with
  | some (.function _ _ _) => .ok h
  | _ => .error (.notCallable path)

end Store

end ForeignBridge
