import ForeignBridge.Proofs.Renderings
import ForeignBridge.Proofs.Tables
import ForeignBridge.Spellings

/-! # Translating types there and back

A table of spellings has two halves. Whatever the half from foreign to host gives, the other half gives back, if no two
templates declare the same family. So a foreign expression that has a host type is given back, apart from blanks
(`toForeign_of_toHost`, by induction on the expression).

The other way round, the foreign text of a host type need not be an expression at all: a family whose spelling is itself
an applied type cannot be given parameters. Where it is one, it is the expression in which every name is replaced by
its spelling (`foreignOf`), and the host type of that is the type from which it was made, as long as no two families
share a spelling and none is the head of another one's (`toHost_of_toForeign`). -/

namespace ForeignBridge

namespace Spellings

open TypeExpr (applyText)

/-! ### What a table holds -/

/-- The templates that declare a family; extensions declare none. -/
def declaring (templates : List Template) : List Template := templates.filter (!·.isExtension)

section tables

variable {templates : List Template}

theorem foldl_add (ts : List Template) (table : Spellings) : ts.foldl add table =
    ⟨(ts.map fun t => (canonical t.foreignName, t.family)).foldl (fun table e => table.insert e.1 e.2) table.host,
      (ts.map fun t => (t.family, canonical t.foreignName)).foldl (fun table e => table.insert e.1 e.2)
        table.foreign⟩ := by
  induction ts generalizing table with
  | nil => rfl
  | cons t ts ih => exact ih (table.add t)

theorem ofTemplates_eq (templates : List Template) : ofTemplates templates =
    ⟨.ofList ((declaring templates).map fun t => (canonical t.foreignName, t.family)),
      .ofList ((declaring templates).map fun t => (t.family, canonical t.foreignName))⟩ :=
  foldl_add (declaring templates) ⟨[], []⟩

/-- A spelling leads to a family that has it. -/
theorem exists_of_host {spelling family : String} (found : (ofTemplates templates).host.get? spelling = some family) :
    ∃ t ∈ declaring templates, t.family = family ∧ canonical t.foreignName = spelling := by
  rw [ofTemplates_eq] at found
  obtain ⟨t, listed, same⟩ := List.mem_map.mp (Keyed.mem_of_get?_ofList found)
  obtain ⟨spelled, named⟩ := Prod.mk.inj same
  exact ⟨t, listed, named, spelled⟩

/-- A family leads to the spelling of a template that declares it. -/
theorem exists_of_foreign {spelling family : String}
    (found : (ofTemplates templates).foreign.get? family = some spelling) :
    ∃ t ∈ declaring templates, t.family = family ∧ canonical t.foreignName = spelling := by
  rw [ofTemplates_eq] at found
  obtain ⟨t, listed, same⟩ := List.mem_map.mp (Keyed.mem_of_get?_ofList found)
  obtain ⟨named, spelled⟩ := Prod.mk.inj same
  exact ⟨t, listed, named, spelled⟩

theorem foreign_of_declaring (distinct : ((declaring templates).map Template.family).Nodup) {t : Template}
    (listed : t ∈ declaring templates) :
    (ofTemplates templates).foreign.get? t.family = some (canonical t.foreignName) := by
  have keys : (((declaring templates).map fun t => (t.family, canonical t.foreignName)).map Prod.fst).Nodup := by
    simpa [Function.comp_def] using distinct
  rw [ofTemplates_eq]
  exact (Keyed.get?_ofList_eq_some_iff keys).mpr (List.mem_map.mpr ⟨t, listed, rfl⟩)

theorem host_of_declaring (distinct : ((declaring templates).map fun t => canonical t.foreignName).Nodup) {t : Template}
    (listed : t ∈ declaring templates) :
    (ofTemplates templates).host.get? (canonical t.foreignName) = some t.family := by
  have keys : (((declaring templates).map fun t => (canonical t.foreignName, t.family)).map Prod.fst).Nodup := by
    simpa [Function.comp_def] using distinct
  rw [ofTemplates_eq]
  exact (Keyed.get?_ofList_eq_some_iff keys).mpr (List.mem_map.mpr ⟨t, listed, rfl⟩)

/-- The family that a spelling leads to leads back to it. -/
def Consistent (table : Spellings) : Prop :=
  ∀ {spelling family : String}, table.host.get? spelling = some family → table.foreign.get? family = some spelling

/-- **Families of distinct names make a consistent table**, whatever their spellings are. -/
theorem consistent_ofTemplates (distinct : ((declaring templates).map Template.family).Nodup) :
    (ofTemplates templates).Consistent := fun found => by
  obtain ⟨t, listed, rfl, rfl⟩ := exists_of_host found
  exact foreign_of_declaring distinct listed

end tables

/-! ### Steps of the two translations -/

section steps

variable {table : Spellings} {n : String} {ps : List TypeExpr}

theorem toForeign_mk {spelling : String} {qs : List String} (spelled : table.foreign.get? n = some spelling)
    (params : table.toForeignAll ps = .ok qs) : table.toForeign ⟨n, ps⟩ = .ok (applyText spelling qs) := by
  rw [toForeign, spelled]
  simp only [params]
  cases qs <;> rfl

theorem toForeign_eq_ok {text : String} (ok : table.toForeign ⟨n, ps⟩ = .ok text) :
    ∃ spelling qs, table.foreign.get? n = some spelling ∧ table.toForeignAll ps = .ok qs ∧
      text = applyText spelling qs := by
  cases spelled : table.foreign.get? n with
  | none =>
    rw [toForeign, spelled] at ok
    cases ok
  | some spelling =>
    cases params : table.toForeignAll ps with
    | error e =>
      rw [toForeign, spelled] at ok
      simp only [params] at ok
      cases ok
    | ok qs => exact ⟨spelling, qs, rfl, rfl, Except.ok.inj (ok.symm.trans (toForeign_mk spelled params))⟩

theorem toForeignAll_cons_eq_ok {p : TypeExpr} {texts : List String} (ok : table.toForeignAll (p :: ps) = .ok texts) :
    ∃ q qs, table.toForeign p = .ok q ∧ table.toForeignAll ps = .ok qs ∧ texts = q :: qs := by
  rw [toForeignAll] at ok
  split at ok
  · cases ok
  · next q first =>
    split at ok
    · next qs rest => exact ⟨q, qs, first, rest, (Except.ok.inj ok).symm⟩
    · cases ok

/-- A spelling of a family is found as a whole. -/
theorem hostOf_whole {e : TypeExpr} {family : String} (whole : table.host.get? e.render = some family) :
    table.hostOf e = .ok ⟨family, []⟩ := by
  obtain ⟨n, ps⟩ := e
  rw [hostOf, whole]
  rfl

/-- Any other expression is translated name by name. -/
theorem hostOf_mk {family : String} {qs : List TypeExpr} (other : table.host.get? (TypeExpr.render ⟨n, ps⟩) = none)
    (named : table.host.get? n = some family) (params : table.hostOfAll ps = .ok qs) :
    table.hostOf ⟨n, ps⟩ = .ok ⟨family, qs⟩ := by
  rw [hostOf, other]
  simp only [named, params]

theorem hostOf_cases {t : TypeExpr} (ok : table.hostOf ⟨n, ps⟩ = .ok t) :
    (∃ family, table.host.get? (TypeExpr.render ⟨n, ps⟩) = some family ∧ t = .concrete family) ∨
    (∃ family qs, table.host.get? n = some family ∧ table.hostOfAll ps = .ok qs ∧ t = ⟨family, qs⟩) := by
  rw [hostOf] at ok
  split at ok
  · next family whole => exact .inl ⟨family, whole, (Except.ok.inj ok).symm⟩
  · split at ok
    · cases ok
    · next family named =>
      split at ok
      · next qs params => exact .inr ⟨family, qs, named, params, (Except.ok.inj ok).symm⟩
      · cases ok

theorem hostOfAll_cons_eq_ok {p : TypeExpr} {ts : List TypeExpr} (ok : table.hostOfAll (p :: ps) = .ok ts) :
    ∃ q qs, table.hostOf p = .ok q ∧ table.hostOfAll ps = .ok qs ∧ ts = q :: qs := by
  rw [hostOfAll] at ok
  split at ok
  · cases ok
  · next q first =>
    split at ok
    · next qs rest => exact ⟨q, qs, first, rest, (Except.ok.inj ok).symm⟩
    · cases ok

theorem toHost_eq_ok {text : String} {t : TypeExpr} (ok : table.toHost text = .ok t) :
    ∃ e, TypeExpr.ofString text = .ok e ∧ table.hostOf e = .ok t := by
  unfold toHost at ok
  split at ok
  · next e read => exact ⟨e, read, ok⟩
  · cases ok

end steps

/-! ### From foreign to host and back -/

mutual

/-- The host type of an expression has the text of the expression as its spelling. -/
theorem toForeign_of_hostOf {table : Spellings} (consistent : table.Consistent) : ∀ (e : TypeExpr) {t : TypeExpr},
    table.hostOf e = .ok t → table.toForeign t = .ok e.render
  | ⟨n, ps⟩, t, ok => by
      obtain ⟨family, whole, rfl⟩ | ⟨family, qs, named, params, rfl⟩ := hostOf_cases ok
      · have none : table.toForeignAll [] = .ok [] := by rw [toForeignAll]
        exact toForeign_mk (consistent whole) none
      · rw [TypeExpr.render_mk]
        exact toForeign_mk (consistent named) (toForeignAll_of_hostOfAll consistent ps params)

theorem toForeignAll_of_hostOfAll {table : Spellings} (consistent : table.Consistent) : ∀ (es : List TypeExpr)
    {ts : List TypeExpr}, table.hostOfAll es = .ok ts → table.toForeignAll ts = .ok (es.map TypeExpr.render)
  | [], ts, ok => by
      rw [hostOfAll] at ok
      obtain rfl := Except.ok.inj ok
      rw [toForeignAll, List.map_nil]
  | e :: es, ts, ok => by
      obtain ⟨q, qs, first, rest, rfl⟩ := hostOfAll_cons_eq_ok ok
      rw [toForeignAll, toForeign_of_hostOf consistent e first]
      simp only [toForeignAll_of_hostOfAll consistent es rest, List.map_cons]

end

/-- **A foreign type expression that has a host type is given back without its blanks.** -/
theorem toForeign_of_toHost {templates : List Template} (distinct : ((declaring templates).map Template.family).Nodup)
    {text : String} {t : TypeExpr} (ok : (ofTemplates templates).toHost text = .ok t) :
    ∃ e, TypeExpr.ofString text = .ok e ∧ (ofTemplates templates).toForeign t = .ok e.render ∧
      e.render.toList = text.toList.filter (!Text.isBlank ·) := by
  obtain ⟨e, read, host⟩ := toHost_eq_ok ok
  refine ⟨e, read, toForeign_of_hostOf (consistent_ofTemplates distinct) e host, ?_⟩
  exact TypeExpr.filter_of_read (TypeExpr.ofString_eq_ok_iff.mp read)

/-- Two families of one spelling, a family the spelling of which is no expression, and a family with a parameter. -/
def sharedSpelling : List Template :=
  [.scalar "Plain" "pm::Plain", .scalar "Odd" "pm Odd", .scalar "Same" "pm::Plain", .generic "Box" "pm::Box" 1]

/-- The last one with a spelling is the host type, and leads back all the same. -/
theorem toForeign_of_toHost_sharedSpelling :
    ((declaring sharedSpelling).map Template.family).Nodup ∧
      (ofTemplates sharedSpelling).toHost "pm::Box < pm::Plain >" = .ok ⟨"Box", [⟨"Same", []⟩]⟩ ∧
      ∃ e, TypeExpr.ofString "pm::Box < pm::Plain >" = .ok e ∧
        (ofTemplates sharedSpelling).toForeign ⟨"Box", [⟨"Same", []⟩]⟩ = .ok e.render ∧
        e.render.toList = "pm::Box < pm::Plain >".toList.filter (!Text.isBlank ·) := by
  have distinct : ((declaring sharedSpelling).map Template.family).Nodup := by decide +kernel
  have ok : (ofTemplates sharedSpelling).toHost "pm::Box < pm::Plain >" = .ok ⟨"Box", [⟨"Same", []⟩]⟩ := by
    decide +kernel
  exact ⟨distinct, ok, toForeign_of_toHost distinct ok⟩

/-! ### Spellings as expressions -/

/-- The spelling of a template as an expression; a single name if it is none. -/
def spelling (t : Template) : TypeExpr :=
  match TypeExpr.read t.foreignName with
  | .ok e => e
  | .error _ => .concrete t.foreignName

/-- The spelling of a family as an expression. -/
def spellingOf (templates : List Template) (family : String) : TypeExpr :=
  match (declaring templates).find? (·.family == family) with
  | some t => spelling t
  | none => .concrete family

/-- Families and spellings are distinct, all spellings can be read, and none of them is the head of one that is applied
to parameters. -/
structure Unambiguous (templates : List Template) : Prop where
  families : ((declaring templates).map Template.family).Nodup
  spellings : ((declaring templates).map fun t => canonical t.foreignName).Nodup
  readable : ∀ t ∈ declaring templates, TypeExpr.ofString t.foreignName = .ok (spelling t)
  heads : ∀ t ∈ declaring templates, (spelling t).isParametric = true →
    ∀ u ∈ declaring templates, canonical u.foreignName ≠ (spelling t).name

theorem unambiguous_catalog : Unambiguous Catalog.templates where
  families := by decide +kernel
  spellings := by decide +kernel
  readable := by decide +kernel
  heads := by decide +kernel

theorem render_spelling (t : Template) : (spelling t).render = canonical t.foreignName := by
  unfold spelling canonical
  cases TypeExpr.read t.foreignName with
  | ok e => rfl
  | error fault => exact TypeExpr.render_concrete t.foreignName

namespace Unambiguous

variable {templates : List Template} (unambiguous : Unambiguous templates)

include unambiguous

theorem spellingOf_eq {t : Template} (listed : t ∈ declaring templates) : spellingOf templates t.family = spelling t := by
  unfold spellingOf
  cases found : (declaring templates).find? (·.family == t.family) with
  | none => simpa using List.find?_eq_none.mp found t listed
  | some u =>
    have same := List.find?_some found
    rw [List.inj_on_of_nodup_map unambiguous.families (List.mem_of_find?_eq_some found) listed (by simpa using same)]

theorem read_spelling {t : Template} (listed : t ∈ declaring templates) :
    TypeExpr.read t.foreignName = .ok (spelling t) :=
  TypeExpr.ofString_eq_ok_iff.mp (unambiguous.readable t listed)

/-- What the table gives for a family is the text of its spelling, and leads back to the family. -/
theorem spelled {n text : String} (found : (ofTemplates templates).foreign.get? n = some text) :
    text = (spellingOf templates n).render ∧ (ofTemplates templates).host.get? text = some n ∧
      ∃ t ∈ declaring templates, spellingOf templates n = spelling t := by
  obtain ⟨t, listed, rfl, rfl⟩ := exists_of_foreign found
  have same := unambiguous.spellingOf_eq listed
  exact ⟨by rw [same, render_spelling], host_of_declaring unambiguous.spellings listed, t, listed, same⟩

end Unambiguous

end Spellings

namespace TypeExpr

mutual

/-- An expression and all expressions inside it. -/
def parts : TypeExpr → List TypeExpr
  | ⟨n, ps⟩ => ⟨n, ps⟩ :: partsParams ps

/-- The parts of a list of parameters. -/
def partsParams : List TypeExpr → List TypeExpr
  | [] => []
  | p :: ps => parts p ++ partsParams ps

end

theorem mem_partsParams {u : TypeExpr} {ps : List TypeExpr} : u ∈ partsParams ps ↔ ∃ p ∈ ps, u ∈ p.parts := by
  induction ps with
  | nil => simp [partsParams]
  | cons q ps ih => simp [partsParams, ih]

end TypeExpr

namespace Spellings

/-! ### Families that cannot be given parameters -/

/-- Somewhere in the type a family is given parameters whose spelling is itself an applied type. -/
def Overapplied (templates : List Template) (t : TypeExpr) : Prop :=
  ∃ u ∈ t.parts, u.params ≠ [] ∧ (spellingOf templates u.name).isParametric = true

section types

variable {templates : List Template}

theorem overapplied_mk {n : String} {ps : List TypeExpr} : Overapplied templates ⟨n, ps⟩ ↔
    (ps ≠ [] ∧ (spellingOf templates n).isParametric = true) ∨ ∃ p ∈ ps, Overapplied templates p := by
  simp only [Overapplied, TypeExpr.parts, List.mem_cons, TypeExpr.mem_partsParams, or_and_right, exists_or,
    exists_eq_left]
  refine or_congr_right ⟨?_, ?_⟩
  · rintro ⟨u, ⟨p, given, inside⟩, both⟩
    exact ⟨p, given, u, inside, both⟩
  · rintro ⟨p, given, u, inside, both⟩
    exact ⟨u, ⟨p, given, inside⟩, both⟩

mutual

/-- The spelling of such a type is no expression: a `<` follows the `>` of the family's own spelling. -/
theorem clash_of_overapplied (unambiguous : Unambiguous templates) : ∀ (t : TypeExpr) {text : String},
    Overapplied templates t → (ofTemplates templates).toForeign t = .ok text → TypeExpr.Clash text
  | ⟨n, ps⟩, text, misapplied, ok => by
      obtain ⟨head, qs, found, params, rfl⟩ := toForeign_eq_ok ok
      obtain ⟨rfl, -, -⟩ := unambiguous.spelled found
      rcases overapplied_mk.mp misapplied with ⟨some, applied⟩ | inside
      · have given : qs ≠ [] := by
          rintro rfl
          obtain ⟨p, ps, rfl⟩ := List.exists_cons_of_ne_nil some
          obtain ⟨q, qs, _, _, impossible⟩ := toForeignAll_cons_eq_ok params
          cases impossible
        exact TypeExpr.clash_applyText (TypeExpr.closes_of_isParametric applied) given
      · obtain ⟨q, given, clash⟩ := exists_clash_of_overapplied unambiguous ps inside params
        exact clash.applyText given _

theorem exists_clash_of_overapplied (unambiguous : Unambiguous templates) : ∀ (ps : List TypeExpr) {qs : List String},
    (∃ p ∈ ps, Overapplied templates p) → (ofTemplates templates).toForeignAll ps = .ok qs →
      ∃ q ∈ qs, TypeExpr.Clash q
  | [], _, misapplied, _ => by simp at misapplied
  | p :: ps, _, misapplied, ok => by
      obtain ⟨q, qs, first, rest, rfl⟩ := toForeignAll_cons_eq_ok ok
      rcases List.exists_mem_cons_iff .. |>.mp misapplied with here | later
      · exact ⟨q, List.mem_cons_self, clash_of_overapplied unambiguous p here first⟩
      · obtain ⟨r, given, clash⟩ := exists_clash_of_overapplied unambiguous ps later rest
        exact ⟨r, List.mem_cons_of_mem _ given, clash⟩

end

/-! ### From host to foreign and back -/

mutual

/-- The foreign expression of a host type: every family is replaced by its spelling. -/
def foreignOf (templates : List Template) : TypeExpr → TypeExpr
  | ⟨n, ps⟩ =>
    ⟨(spellingOf templates n).name, (spellingOf templates n).params ++ foreignOfAll templates ps⟩

/-- The foreign expressions of a list of parameters. -/
def foreignOfAll (templates : List Template) : List TypeExpr → List TypeExpr
  | [] => []
  | p :: ps => foreignOf templates p :: foreignOfAll templates ps

end

theorem foreignOf_concrete (n : String) : foreignOf templates ⟨n, []⟩ = spellingOf templates n := by
  rw [foreignOf, foreignOfAll, List.append_nil]
  cases spellingOf templates n
  rfl

theorem foreignOfAll_ne_nil {ps : List TypeExpr} (some : ps ≠ []) : foreignOfAll templates ps ≠ [] := by
  obtain ⟨p, ps, rfl⟩ := List.exists_cons_of_ne_nil some
  rw [foreignOfAll]
  exact List.cons_ne_nil _ _

/-- No family is spelled like a plain spelling with parameters. -/
theorem Unambiguous.host_applied (unambiguous : Unambiguous templates) {n head : String} {qs : List TypeExpr}
    (found : (ofTemplates templates).foreign.get? n = some head) (some : qs ≠ [])
    (names : ∀ m ∈ (TypeExpr.mk head qs).names, TypeExpr.IsName m) :
    (ofTemplates templates).host.get? (TypeExpr.render ⟨head, qs⟩) = none := by
  refine Option.eq_none_iff_forall_not_mem.mpr fun family there => ?_
  obtain ⟨x, listed, -, same⟩ := exists_of_host there
  obtain ⟨u, listed', -, rfl⟩ := exists_of_foreign found
  have applied : spelling x = ⟨canonical u.foreignName, qs⟩ :=
    TypeExpr.eq_of_render_eq names (unambiguous.read_spelling listed) (by rw [render_spelling, same])
  refine unambiguous.heads x listed ?_ u listed' (by rw [applied])
  simpa [applied, TypeExpr.isParametric] using some

/-- The expression `e` has the text, its names are well formed, and `t` is its host type. -/
structure Returns (table : Spellings) (t : TypeExpr) (text : String) (e : TypeExpr) : Prop where
  text : text = e.render
  names : ∀ m ∈ e.names, TypeExpr.IsName m
  host : table.hostOf e = .ok t

mutual

/-- **Where no spelling is given parameters, the foreign expression leads back to the type.** -/
theorem returns_foreignOf (unambiguous : Unambiguous templates) : ∀ (t : TypeExpr) {text : String},
    ¬ Overapplied templates t → (ofTemplates templates).toForeign t = .ok text →
      Returns (ofTemplates templates) t text (foreignOf templates t)
  | ⟨n, []⟩, text, _, ok => by
      obtain ⟨head, qs, found, params, rfl⟩ := toForeign_eq_ok ok
      obtain ⟨rfl, back, u, listed, same⟩ := unambiguous.spelled found
      rw [toForeignAll] at params
      obtain rfl := Except.ok.inj params
      have names := (TypeExpr.read_eq_ok_iff.mp (unambiguous.read_spelling listed)).1.names
      rw [foreignOf_concrete]
      exact ⟨TypeExpr.applyText_nil _, same ▸ names, hostOf_whole back⟩
  | ⟨n, p :: ps⟩, text, plain, ok => by
      obtain ⟨head, qs, found, params, rfl⟩ := toForeign_eq_ok ok
      obtain ⟨rfl, back, u, listed, same⟩ := unambiguous.spelled found
      have names := (TypeExpr.read_eq_ok_iff.mp (unambiguous.read_spelling listed)).1.names
      rw [overapplied_mk, not_or] at plain
      obtain ⟨single, inside⟩ := plain
      obtain ⟨texts, proper, hosts⟩ := returnsAll_foreignOfAll unambiguous (p :: ps)
        (fun q hq misapplied => inside ⟨q, hq, misapplied⟩) params
      rw [← same] at names
      rw [foreignOf]
      generalize spellingOf templates n = spelling at *
      obtain ⟨m, ms⟩ := spelling
      obtain rfl : ms = [] := by simpa [TypeExpr.isParametric] using single
      have head : TypeExpr.render ⟨m, []⟩ = m := TypeExpr.render_concrete m
      rw [head] at found back ⊢
      rw [List.nil_append]
      have all : ∀ k ∈ (TypeExpr.mk m (foreignOfAll templates (p :: ps))).names, TypeExpr.IsName k := by
        rw [TypeExpr.names]
        exact List.forall_mem_cons.mpr ⟨names m (by simp [TypeExpr.names]), proper⟩
      have other := unambiguous.host_applied found (foreignOfAll_ne_nil (List.cons_ne_nil p ps)) all
      exact ⟨by rw [TypeExpr.render_mk, texts], all, hostOf_mk other back hosts⟩

theorem returnsAll_foreignOfAll (unambiguous : Unambiguous templates) : ∀ (ps : List TypeExpr) {texts : List String},
    (∀ p ∈ ps, ¬ Overapplied templates p) → (ofTemplates templates).toForeignAll ps = .ok texts →
      texts = (foreignOfAll templates ps).map TypeExpr.render ∧
      (∀ m ∈ TypeExpr.namesParams (foreignOfAll templates ps), TypeExpr.IsName m) ∧
      (ofTemplates templates).hostOfAll (foreignOfAll templates ps) = .ok ps
  | [], texts, _, ok => by
      rw [toForeignAll] at ok
      obtain rfl := Except.ok.inj ok
      simp [foreignOfAll, TypeExpr.namesParams, hostOfAll]
  | p :: ps, texts, plain, ok => by
      obtain ⟨q, qs, first, rest, rfl⟩ := toForeignAll_cons_eq_ok ok
      obtain ⟨here, others⟩ := List.forall_mem_cons.mp plain
      obtain ⟨text, names, host⟩ := returns_foreignOf unambiguous p here first
      obtain ⟨texts, names', hosts⟩ := returnsAll_foreignOfAll unambiguous ps others rest
      rw [foreignOfAll]
      refine ⟨by rw [List.map_cons, text, texts], ?_, ?_⟩
      · rw [TypeExpr.namesParams]
        exact List.forall_mem_append.mpr ⟨names, names'⟩
      · rw [hostOfAll, host]
        simp only [hosts]

end

end types

theorem toHost_of_read {table : Spellings} {text : String} {e t : TypeExpr} (read : TypeExpr.read text = .ok e)
    (host : table.hostOf e = .ok t) : table.toHost text = .ok t := by
  rw [toHost, TypeExpr.ofString_eq_ok_iff.mpr read]
  exact host

theorem toHost_of_unread {table : Spellings} {text : String} (unread : ∀ e, TypeExpr.read text ≠ .ok e) :
    ∃ e, table.toHost text = .error (.malformed e) := by
  unfold toHost TypeExpr.ofString
  cases read : TypeExpr.read text with
  | ok e => exact absurd read (unread e)
  | error fault => exact ⟨_, rfl⟩

/-- **A host type comes back from its foreign spelling, or nothing does.** It comes back if the spelling nests at most
64 levels and no family that is spelled as an applied type is given parameters anywhere; else the spelling is no type
expression. The tables in question are those of unambiguous templates, such as the catalog. -/
theorem toHost_of_toForeign : Unambiguous Catalog.templates ∧
    ∀ {templates : List Template}, Unambiguous templates → ∀ {t : TypeExpr} {text : String},
      (ofTemplates templates).toForeign t = .ok text →
      (TypeExpr.nesting text ≤ 64 ∧ ¬ Overapplied templates t → (ofTemplates templates).toHost text = .ok t) ∧
      (¬ (TypeExpr.nesting text ≤ 64 ∧ ¬ Overapplied templates t) →
        ∃ e, (ofTemplates templates).toHost text = .error (.malformed e)) ∧
      ∀ u, (ofTemplates templates).toHost text = .ok u → u = t := by
  refine ⟨unambiguous_catalog, fun {templates} unambiguous {t text} ok => ?_⟩
  have returns : TypeExpr.nesting text ≤ 64 ∧ ¬ Overapplied templates t →
      (ofTemplates templates).toHost text = .ok t := by
    rintro ⟨within, plain⟩
    obtain ⟨rfl, names, host⟩ := returns_foreignOf unambiguous t plain ok
    exact toHost_of_read (TypeExpr.read_render names within) host
  have fails : ¬ (TypeExpr.nesting text ≤ 64 ∧ ¬ Overapplied templates t) →
      ∃ e, (ofTemplates templates).toHost text = .error (.malformed e) := by
    intro other
    refine toHost_of_unread fun e read => ?_
    rcases not_and_or.mp other with deep | misapplied
    · exact TypeExpr.read_of_deep (not_le.mp deep) e read
    · exact TypeExpr.read_of_clash (clash_of_overapplied unambiguous t (not_not.mp misapplied) ok) e read
  refine ⟨returns, fails, fun u back => ?_⟩
  by_cases fine : TypeExpr.nesting text ≤ 64 ∧ ¬ Overapplied templates t
  · exact Except.ok.inj (back.symm.trans (returns fine))
  · obtain ⟨e, malformed⟩ := fails fine
    cases back.symm.trans malformed

/-- Tropical numbers as parameters come back; given parameters themselves, they do not. -/
theorem toHost_of_toForeign_tropical :
    standard.toForeign ⟨"Vector", [⟨"MinTropical", []⟩]⟩ = .ok "pm::Vector<pm::TropicalNumber<pm::Min,pm::Rational>>" ∧
    standard.toHost "pm::Vector<pm::TropicalNumber<pm::Min,pm::Rational>>" = .ok ⟨"Vector", [⟨"MinTropical", []⟩]⟩ ∧
    standard.toForeign ⟨"MinTropical", [⟨"Int", []⟩]⟩ = .ok "pm::TropicalNumber<pm::Min,pm::Rational><long>" ∧
    ∃ e, standard.toHost "pm::TropicalNumber<pm::Min,pm::Rational><long>" = .error (.malformed e) := by
  have vector : standard.toForeign ⟨"Vector", [⟨"MinTropical", []⟩]⟩ =
      .ok "pm::Vector<pm::TropicalNumber<pm::Min,pm::Rational>>" := by decide +kernel
  have tropical : standard.toForeign ⟨"MinTropical", [⟨"Int", []⟩]⟩ =
      .ok "pm::TropicalNumber<pm::Min,pm::Rational><long>" := by decide +kernel
  have plain : ¬ Overapplied Catalog.templates ⟨"Vector", [⟨"MinTropical", []⟩]⟩ := by
    unfold Overapplied
    decide +kernel
  have misapplied : Overapplied Catalog.templates ⟨"MinTropical", [⟨"Int", []⟩]⟩ := by
    unfold Overapplied
    decide +kernel
  obtain ⟨unambiguous, there⟩ := toHost_of_toForeign
  exact ⟨vector, (there unambiguous vector).1 ⟨by decide +kernel, plain⟩, tropical,
    (there unambiguous tropical).2.1 fun both => both.2 misapplied⟩

end Spellings

end ForeignBridge
