import ForeignBridge.Registration.Error
import ForeignBridge.Store.Crossing
import ForeignBridge.Template

/-! # The registry of foreign types

The registry keeps a cell for the constructor of each registered family and for the foreign type of each registered
host type. Parameters belong to the identity of a type, so `Array<Int>` and `Array<Rational>` are registered apart.

An index leads back from foreign types to host types, and a list shows the types in the order of their registrations.
Registering replaces: a type that is registered again gets the new foreign type, and the cell of the old one is
released. In the index the latest registration of a foreign type counts, while the list shows every registration. An
operation that fails gives back the registry as it is then, like one that succeeds. -/

namespace ForeignBridge

/-- A family whose constructor was found in the foreign runtime. -/
structure RegisteredFamily where
  template : Template
  constructor : CellId
deriving DecidableEq, Repr

/-- The registered families and types. -/
structure Registry where
  families : Keyed RegisteredFamily
  types : Assoc TypeExpr CellId
  /-- The host type of each foreign type. -/
  byHandle : Assoc Handle TypeExpr
  /-- The type of each registration, the oldest first. -/
  order : List TypeExpr
deriving Repr

namespace Registry

/-- Nothing is registered. -/
def empty : Registry := ⟨[], [], [], []⟩

/-! ### Looking up -/

/-- The cell of a registered type. -/
def cell? (r : Registry) (t : TypeExpr) : Option CellId := r.types.lookup t

/-- The foreign type of a registered type. -/
def lookup (r : Registry) (s : Store) (t : TypeExpr) : Option Handle := (r.cell? t).map s.read

/-- The type is registered. -/
def isRegistered (r : Registry) (t : TypeExpr) : Bool := (r.cell? t).isSome

/-- The host type of a foreign type. -/
def hostType? (r : Registry) (foreign : Handle) : Option TypeExpr := r.byHandle.lookup foreign

/-- The name of the single type that native values of a kind belong to. -/
def nativeName? {ρ : Type} : Value ρ → Option String
  | .bool _ => some "Bool"
  | .int _ => some "Int"
  | .float _ => some "Float"
  | .str _ => some "String"
  | _ => none

/-- The registered type of a native value. -/
def nativeType? (r : Registry) (v : Value CellId) : Option TypeExpr :=
  ((nativeName? v).map TypeExpr.concrete).filter r.isRegistered

/-- The registered type of a value: that of its kind for native values, and for a foreign object the host type of its
foreign type. -/
def typeOfValue (r : Registry) (s : Store) (v : Value CellId) : Except RegistrationError TypeExpr :=
  match r.nativeType? v with
  | some t => .ok t
  | none =>
    match v.object?.bind fun c => r.hostType? (s.typeOf (s.read c)) with
    | some t => .ok t
    | none => .error (.noHostType (Snapshot.render (s.snapshot v)))

/-! ### Registering -/

/-- Records a type. The registry takes over the holding of the cell and gives up that of the cell it replaces. -/
def record (t : TypeExpr) (c : CellId) (r : Registry) (s : Store) : Registry × Store :=
  let previous := (r.cell? t).toList
  ({ r with
      types := r.types.insert t c
      byHandle := r.byHandle.insert (s.read c) t
      order := r.order ++ [t] },
    s.releaseAll previous)

/-- Records a family, likewise. -/
def recordFamily (t : Template) (c : CellId) (r : Registry) (s : Store) : Registry × Store :=
  let previous := (r.families.get? t.family).toList.map RegisteredFamily.constructor
  ({ r with families := r.families.insert t.family ⟨t, c⟩ }, s.releaseAll previous)

/-- What keeps a template from being registered, apart from its foreign type. -/
def obstacle? (t : Template) (r : Registry) (version : Version) : Option Unavailability :=
  match t.requires.find? (!r.families.has ·) with
  | some family => some (.requires family)
  | none =>
    match t.since with
    | none => none
    | some text =>
      match Version.Requirement.ofString? text with
      | none => some (.malformedRequirement text)
      | some required => if required.accepts version then none else some (.library required version)

/-- Registers a family, and its single type if it has no parameters. An extension is only checked. -/
def addFamily (t : Template) (r : Registry) (s : Store) : Except RegistrationError Unit × Registry × Store :=
  match obstacle? t r s.version with
  | some cause => (.error (.unavailable t.family cause), r, s)
  | none =>
    if t.isExtension then (.ok (), r, s)
    else
      match s.family? t.foreignName with
      | none => (.error (.unavailable t.family (.noForeignType t.foreignName)), r, s)
      | some h =>
        let (c, s) := s.hold h
        let (r, s) := if t.isScalar then r.record (.concrete t.family) c (s.retain c) else (r, s)
        (.ok (), r.recordFamily t c s)

/-- The foreign types of parameters; the first that is not registered decides. -/
def parameters (r : Registry) (s : Store) (t : TypeExpr) : List TypeExpr → Except RegistrationError (List Handle)
  | [] => .ok []
  | p :: ps =>
    match r.lookup s p with
    | none => .error (.unregisteredParameter t.render p)
    | some h =>
      match r.parameters s t ps with
      | .ok hs => .ok (h :: hs)
      | .error e => .error e

/-- Registers an instance of a family, all of whose parameters must be registered. A type that is registered already is
left as it is. The result is the foreign type. -/
def instantiate (t : TypeExpr) (r : Registry) (s : Store) : Except RegistrationError Handle × Registry × Store :=
  match r.lookup s t with
  | some h => (.ok h, r, s)
  | none =>
    match r.families.get? t.name with
    | none => (.error (.unknownFamily t.name), r, s)
    | some family =>
      if t.params.length ≠ family.template.arity then
        (.error (.arityMismatch t.name family.template.arity t.params.length), r, s)
      else
        match r.parameters s t t.params with
        | .error e => (.error e, r, s)
        | .ok params =>
          match s.crossing (Store.applyFamily (s.read family.constructor) params) with
          | (.error e, s) => (.error (.bridge e), r, s)
          | (.ok h, s) =>
            let (c, s) := s.hold h
            (.ok h, r.record t c s)

/-- The cells that the registry holds. -/
def cells (r : Registry) : List CellId := r.families.map (·.2.constructor) ++ r.types.map Prod.snd

end Registry

end ForeignBridge
