import ForeignBridge.Catalog
import ForeignBridge.Proofs.Faults
import ForeignBridge.Proofs.Interning

/-! # What type expressions stand for

A type expression stands for at most one handle (`denotation?`): the family of its name, applied to what the parameters
stand for. In a store that keeps the types it stands for the same handle; and as the tables agree with the slots,
different expressions stand for different handles, and what they stand for is live. -/

namespace ForeignBridge

namespace Store

variable {s t w : Store}

/-! ### Applying a family -/

/-- What applying a family to parameters leaves. -/
structure Applies (s : Store) (head : Handle) (params : List Handle) (h : Handle) (t : Store) : Prop where
  found : t.applied? head params = some h
  keeps : s.KeepsTypes t
  cells : t.cells = s.cells
  fault : t.fault = s.fault
  halted : t.halted = s.halted
  version : t.version = s.version

/-- Applying a family to parameters gives the one type object of these. -/
theorem applies_applyFamily {head : Handle} (family : s.isFamily head = true) {params : List Handle}
    (given : params ≠ []) : s.Applies head params (s.applyFamily head params).1 (s.applyFamily head params).2 := by
  have keeps := (acts_applyFamily (s := s) (o := 0) head params).keepsTypes
  have ways := s.appliesFamily head params
  generalize s.applyFamily head params = result at ways keeps ⊢
  cases ways with
  | refused message other =>
    rw [family] at other
    cases other
  | itself family none => exact absurd none given
  | shared family given found => exact ⟨found, keeps, rfl, rfl, rfl, rfl⟩
  | made family given fresh =>
    have enters : (s.note .applyFamily).Enters (.type head params) := enters_type family given fresh
    exact ⟨(applied?_pushSlot enters).mpr (.inl ⟨rfl, rfl⟩), keeps, rfl, rfl, rfl, rfl⟩

theorem keepsTypes_takeFault (s : Store) : s.KeepsTypes s.takeFault.2 :=
  SameTypes.keepsTypes (sameTypes_of_objects (object?_congr (Ledger.apply_takeFault slots (fun _ _ _ _ => rfl) s))
    (Ledger.apply_takeFault families (fun _ _ _ _ => rfl) s) (Ledger.apply_takeFault applied (fun _ _ _ _ => rfl) s))

/-- With the check for a fault: the type object, unless a fault was pending before. -/
theorem crossing_applyFamily {head : Handle} (family : s.isFamily head = true) {params : List Handle}
    (given : params ≠ []) :
    s.KeepsTypes (s.crossing (applyFamily head params)).2 ∧
    (s.crossing (applyFamily head params)).2.cells = s.cells ∧
    (s.crossing (applyFamily head params)).2.version = s.version ∧
    (s.crossing (applyFamily head params)).2.fault = none ∧
    (s.fault = none → (∃ h, (s.crossing (applyFamily head params)).1 = .ok h) ∧
      (s.crossing (applyFamily head params)).2.halted = s.halted) ∧
    ∀ h, (s.crossing (applyFamily head params)).1 = .ok h →
      (s.crossing (applyFamily head params)).2.applied? head params = some h := by
  have applies := applies_applyFamily family given
  have cleared := (checked_crossing (applyFamily head params) s).cleared
  have checks := keepsTypes_takeFault (s.applyFamily head params).2
  have cells := Ledger.apply_takeFault Store.cells (fun _ _ _ _ => rfl) (s.applyFamily head params).2
  have version := Ledger.apply_takeFault Store.version (fun _ _ _ _ => rfl) (s.applyFamily head params).2
  rw [← Ledger.crossing_snd] at checks cells version
  refine ⟨applies.keeps.trans checks, cells.trans applies.cells, version.trans applies.version, cleared,
    fun clean => ?_, fun h ok => ?_⟩
  · rw [crossing_of_none (applies.fault.trans clean)]
    exact ⟨⟨_, rfl⟩, applies.halted⟩
  · rw [Ledger.crossing_fst ok]
    exact checks.applied applies.found

end Store

/-! ### What type expressions stand for -/

namespace Catalog

/-- The template that declares a family, other than an extension. -/
def own? (family : String) : Option Template := templates.find? fun t => !t.isExtension && t.family == family

theorem own?_eq_some {family : String} {t : Template} (found : own? family = some t) :
    t ∈ templates ∧ t.isExtension = false ∧ t.family = family := by
  have passes := List.find?_some found
  simp only [Bool.and_eq_true, Bool.not_eq_true', beq_iff_eq] at passes
  exact ⟨List.mem_of_find?_eq_some found, passes⟩

/-- No two templates have the same name. -/
theorem distinct : (templates.map Template.family).Nodup := by decide +kernel

/-- No two families have the same foreign name. -/
theorem distinct_foreignNames :
    ((templates.filter (!·.isExtension)).map Template.foreignName).Nodup := by decide +kernel

theorem own?_of_mem {t : Template} (listed : t ∈ templates) (own : t.isExtension = false) :
    own? t.family = some t := by
  have some : (own? t.family).isSome := List.find?_isSome.mpr ⟨t, listed, by simp [own]⟩
  obtain ⟨u, found⟩ := Option.isSome_iff_exists.mp some
  obtain ⟨listed', _, same⟩ := own?_eq_some found
  rwa [List.inj_on_of_nodup_map distinct listed' listed same] at found

theorem eq_of_foreignName_eq {t u : Template} (listed : t ∈ templates) (own : t.isExtension = false)
    (listed' : u ∈ templates) (own' : u.isExtension = false) (same : t.foreignName = u.foreignName) : t = u :=
  List.inj_on_of_nodup_map distinct_foreignNames (List.mem_filter.mpr ⟨listed, by simp [own]⟩)
    (List.mem_filter.mpr ⟨listed', by simp [own']⟩) same

end Catalog

namespace Store

variable {s t : Store}

mutual

/-- The handle that a type expression stands for: that of the family of its name if there are no parameters, and else
that of the family applied to what the parameters stand for. -/
def denotation? (s : Store) : TypeExpr → Option Handle
  | ⟨name, params⟩ =>
    (Catalog.own? name).bind fun t =>
      (s.family? t.foreignName).bind fun head =>
        if params.isEmpty then some head else (s.denotations? params).bind (s.applied? head)

/-- What the expressions of a list stand for. -/
def denotations? (s : Store) : List TypeExpr → Option (List Handle)
  | [] => some []
  | p :: ps => (s.denotation? p).bind fun h => (s.denotations? ps).map (h :: ·)

end

/-- How a type expression comes to stand for a handle. -/
theorem denotation?_eq_some {e : TypeExpr} {h : Handle} : s.denotation? e = some h ↔
    ∃ t head, Catalog.own? e.name = some t ∧ s.family? t.foreignName = some head ∧
      if e.params = [] then head = h
      else ∃ params, s.denotations? e.params = some params ∧ s.applied? head params = some h := by
  obtain ⟨name, params⟩ := e
  simp only [denotation?, Option.bind_eq_some_iff, List.isEmpty_iff]
  constructor
  · rintro ⟨t, own, head, provided, rest⟩
    refine ⟨t, head, own, provided, ?_⟩
    split at rest
    · next none => rw [if_pos none]; exact Option.some.inj rest
    · next some => rw [if_neg some]; exact Option.bind_eq_some_iff.mp rest
  · rintro ⟨t, head, own, provided, rest⟩
    refine ⟨t, own, head, provided, ?_⟩
    split at rest
    · next none => rw [if_pos none, rest]
    · next some => rw [if_neg some]; exact Option.bind_eq_some_iff.mpr rest

theorem denotations?_cons_eq_some {p : TypeExpr} {ps : List TypeExpr} {hs : List Handle} :
    s.denotations? (p :: ps) = some hs ↔
      ∃ h rest, s.denotation? p = some h ∧ s.denotations? ps = some rest ∧ hs = h :: rest := by
  simp only [denotations?, Option.bind_eq_some_iff, Option.map_eq_some_iff]
  constructor
  · rintro ⟨h, first, rest, others, rfl⟩
    exact ⟨h, rest, first, others, rfl⟩
  · rintro ⟨h, rest, first, others, rfl⟩
    exact ⟨h, first, rest, others, rfl⟩

mutual

/-- An expression goes on standing for its handle. -/
theorem KeepsTypes.denotation? (keeps : s.KeepsTypes t) : ∀ {e : TypeExpr} {h : Handle},
    s.denotation? e = some h → t.denotation? e = some h
  | ⟨name, params⟩, h, stands => by
      obtain ⟨u, head, own, provided, rest⟩ := denotation?_eq_some.mp stands
      refine denotation?_eq_some.mpr ⟨u, head, own, keeps.family provided, ?_⟩
      split at rest
      · next none => rwa [if_pos none]
      · next some =>
        obtain ⟨hs, given, applied⟩ := rest
        rw [if_neg some]
        exact ⟨hs, keeps.denotations? given, keeps.applied applied⟩

theorem KeepsTypes.denotations? (keeps : s.KeepsTypes t) : ∀ {ps : List TypeExpr} {hs : List Handle},
    s.denotations? ps = some hs → t.denotations? ps = some hs
  | [], hs, stands => stands
  | p :: ps, hs, stands => by
      obtain ⟨h, rest, first, others, rfl⟩ := denotations?_cons_eq_some.mp stands
      exact denotations?_cons_eq_some.mpr ⟨h, rest, keeps.denotation? first, keeps.denotations? others, rfl⟩

end

/-- What an expression stands for is a family or an applied type. -/
theorem object?_denotation? (interned : s.Interned) {e : TypeExpr} {h : Handle} (stands : s.denotation? e = some h) :
    ∃ o, s.object? h = some o ∧ o.isTypeEntry = true := by
  obtain ⟨u, head, _, provided, rest⟩ := denotation?_eq_some.mp stands
  split at rest
  · subst rest
    exact ⟨_, interned.family.mp provided, rfl⟩
  · obtain ⟨hs, _, applied⟩ := rest
    exact ⟨_, interned.applied.mp applied, rfl⟩

theorem isLive_denotation? (interned : s.Interned) {e : TypeExpr} {h : Handle} (stands : s.denotation? e = some h) :
    s.isLive h = true := by
  obtain ⟨o, object, _⟩ := object?_denotation? interned stands
  exact isLive_of_object? object

theorem denotation?_ne_null (interned : s.Interned) {e : TypeExpr} {h : Handle} (stands : s.denotation? e = some h) :
    h ≠ Handle.null := by
  rintro rfl
  exact absurd (isLive_denotation? interned stands) (by simp [isLive, slot?_null])

/-- Where two families are found at one handle, they are one template of the catalog. -/
theorem own_eq_of_family? (interned : s.Interned) {m n : String} {u v : Template} (own : Catalog.own? m = some u)
    (own' : Catalog.own? n = some v) {head : Handle} (provided : s.family? u.foreignName = some head)
    (provided' : s.family? v.foreignName = some head) : m = n := by
  obtain ⟨listed, ownU, rfl⟩ := Catalog.own?_eq_some own
  obtain ⟨listed', ownV, rfl⟩ := Catalog.own?_eq_some own'
  have same : Object.family u.foreignName = .family v.foreignName :=
    Option.some.inj ((interned.family.mp provided).symm.trans (interned.family.mp provided'))
  rw [Catalog.eq_of_foreignName_eq listed ownU listed' ownV (Object.family.inj same)]

mutual

/-- **Different expressions stand for different handles.** -/
theorem denotation?_injective (interned : s.Interned) : ∀ {e f : TypeExpr} {h : Handle}, s.denotation? e = some h →
    s.denotation? f = some h → e = f
  | ⟨m, ps⟩, ⟨n, qs⟩, h, stands, stands' => by
      obtain ⟨u, head, own, provided, rest⟩ := denotation?_eq_some.mp stands
      obtain ⟨v, head', own', provided', rest'⟩ := denotation?_eq_some.mp stands'
      dsimp only at own own' rest rest'
      by_cases none : ps = [] <;> by_cases none' : qs = []
      · rw [if_pos none] at rest
        rw [if_pos none'] at rest'
        subst rest rest' none none'
        rw [own_eq_of_family? interned own own' provided provided']
      · rw [if_pos none] at rest
        rw [if_neg none'] at rest'
        subst rest
        obtain ⟨hs, _, applied⟩ := rest'
        exact absurd ((interned.family.mp provided).symm.trans (interned.applied.mp applied)) (by simp)
      · rw [if_neg none] at rest
        rw [if_pos none'] at rest'
        subst rest'
        obtain ⟨hs, _, applied⟩ := rest
        exact absurd ((interned.family.mp provided').symm.trans (interned.applied.mp applied)) (by simp)
      · rw [if_neg none] at rest
        rw [if_neg none'] at rest'
        obtain ⟨hs, given, applied⟩ := rest
        obtain ⟨hs', given', applied'⟩ := rest'
        obtain ⟨rfl, rfl⟩ := Object.type.inj
          (Option.some.inj ((interned.applied.mp applied).symm.trans (interned.applied.mp applied')))
        rw [own_eq_of_family? interned own own' provided provided', denotations?_injective interned given given']

theorem denotations?_injective (interned : s.Interned) : ∀ {ps qs : List TypeExpr} {hs : List Handle},
    s.denotations? ps = some hs → s.denotations? qs = some hs → ps = qs
  | [], [], hs, _, _ => rfl
  | [], q :: qs, hs, stands, stands' => by
      obtain ⟨h, rest, _, _, rfl⟩ := denotations?_cons_eq_some.mp stands'
      cases stands
  | p :: ps, [], hs, stands, stands' => by
      obtain ⟨h, rest, _, _, rfl⟩ := denotations?_cons_eq_some.mp stands
      cases stands'
  | p :: ps, q :: qs, hs, stands, stands' => by
      obtain ⟨h, rest, first, others, rfl⟩ := denotations?_cons_eq_some.mp stands
      obtain ⟨h', rest', first', others', same⟩ := denotations?_cons_eq_some.mp stands'
      obtain ⟨rfl, rfl⟩ := List.cons.inj same
      rw [denotation?_injective interned first first', denotations?_injective interned others others']

end

end Store

end ForeignBridge
