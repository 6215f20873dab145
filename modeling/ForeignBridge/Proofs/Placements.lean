import Mathlib
import ForeignBridge.Proofs.Tables
import ForeignBridge.Registration.Placement

/-! # Greedy orders

The order of registration is found by counting. What it comes to is said without counts: a family is *ready* once all
of its dependencies among the templates are placed, and at each place of the order stands the least ready family, until
none is ready (`Greedy`). For templates of distinct names the computed order is greedy (`greedy_ofTemplates`).

The proof follows the queue. After some families are placed, the count of a template is the number of its dependencies
that are not, and the ready families stand in the queue by rank (`Tracks`). Placing a family lowers the counts of the
templates that depend on it, each once, which restores both. So a run empties the queue, no count falls below zero on the
way (`Drains`), and the computed order is that of a run. -/

namespace ForeignBridge

/-! ### Ascending lists -/

namespace Ascending

variable {α : Type} [DecidableEq α] [LT α] [DecidableLT α] [IsStrictTotalOrder α (· < ·)]

theorem pairwise_insert (x : α) {l : List α} (ascends : l.Pairwise (· < ·)) : (insert x l).Pairwise (· < ·) := by
  induction l with
  | nil => simp [insert]
  | cons y rest ih =>
    obtain ⟨least, later⟩ := List.pairwise_cons.mp ascends
    unfold insert
    split
    · exact ascends
    · next apart =>
      split
      · next below =>
        refine List.pairwise_cons.mpr ⟨fun z hz => ?_, ascends⟩
        rcases List.mem_cons.mp hz with rfl | hz
        · exact below
        · exact trans_of (· < ·) below (least z hz)
      · next above =>
        refine List.pairwise_cons.mpr ⟨fun z hz => ?_, ih later⟩
        rcases mem_insert.mp hz with rfl | hz
        · exact ((trichotomous_of (· < ·) z y).resolve_left above).resolve_left apart
        · exact least z hz

theorem pairwise_ofList (l : List α) : (ofList l).Pairwise (· < ·) := by
  induction l with
  | nil => exact List.Pairwise.nil
  | cons x rest ih => exact pairwise_insert x ih

theorem nodup_ofList (l : List α) : (ofList l).Nodup := by
  refine (pairwise_ofList l).imp fun {a b} below same => ?_
  subst same
  exact irrefl_of (· < ·) a below

end Ascending

namespace Placement

/-! ### Ranks -/

@[simp] theorem name_rank (templates : List Template) (family : String) : (rank templates family).name = family := by
  unfold rank
  split <;> rfl

theorem rank_injective (templates : List Template) : Function.Injective (rank templates) := fun f g same => by
  rw [← name_rank templates f, same, name_rank]

instance : IsStrictTotalOrder Rank (· < ·) where
  irrefl := by
    rintro ⟨c, n⟩ (⟨hf, ht⟩ | ⟨-, below⟩)
    · exact Bool.noConfusion (hf.symm.trans ht)
    · exact lt_irrefl _ below
  trans := by
    rintro ⟨a, l⟩ ⟨b, m⟩ ⟨c, n⟩ (⟨ha, hb⟩ | ⟨hab, below⟩) (⟨hb', hc⟩ | ⟨hbc, below'⟩)
    · exact Bool.noConfusion (hb.symm.trans hb')
    · exact .inl ⟨ha, hbc.symm.trans hb⟩
    · exact .inl ⟨hab.trans hb', hc⟩
    · exact .inr ⟨hab.trans hbc, below.trans below'⟩
  trichotomous := by
    rintro ⟨a, m⟩ ⟨b, n⟩ notBelow notAbove
    have sameKind : a = b := by
      cases a <;> cases b
      · rfl
      · exact absurd (.inl ⟨rfl, rfl⟩) notBelow
      · exact absurd (.inl ⟨rfl, rfl⟩) notAbove
      · rfl
    subst sameKind
    have sameName : m = n := le_antisymm (not_lt.mp fun below => notAbove (.inr ⟨rfl, below⟩))
      (not_lt.mp fun below => notBelow (.inr ⟨rfl, below⟩))
    rw [sameName]

/-! ### Greedy orders -/

section greedy

variable (templates : List Template)

/-- The family is not placed, but all of its dependencies among the templates are. -/
def Ready (placed : List String) (family : String) : Prop :=
  ∃ t ∈ templates, t.family = family ∧ family ∉ placed ∧ ∀ d ∈ inside templates t, d ∈ placed

/-- A list goes on from what is placed: the least ready family comes next, until none is ready. -/
inductive Greedy : List String → List String → Prop
  | stop {placed : List String} (none : ∀ f, ¬ Ready templates placed f) : Greedy placed []
  | place {placed rest : List String} {f : String} (ready : Ready templates placed f)
      (least : ∀ g, Ready templates placed g → g ≠ f → rank templates f < rank templates g)
      (further : Greedy (placed ++ [f]) rest) : Greedy placed (f :: rest)

end greedy

variable {templates : List Template}

theorem Ready.notMem {placed : List String} {f : String} (ready : Ready templates placed f) : f ∉ placed := by
  obtain ⟨_, _, _, new, _⟩ := ready
  exact new

theorem Ready.mem {placed : List String} {f : String} (ready : Ready templates placed f) :
    f ∈ templates.map Template.family := by
  obtain ⟨t, listed, rfl, _⟩ := ready
  exact List.mem_map_of_mem listed

namespace Greedy

variable {placed order : List String}

/-- Each family is ready where it stands, and the least one. -/
theorem at_place (greedy : Greedy templates placed order) {before after : List String} {f : String}
    (split : order = before ++ f :: after) : Ready templates (placed ++ before) f ∧
      ∀ g, Ready templates (placed ++ before) g → g ≠ f → rank templates f < rank templates g := by
  induction greedy generalizing before with
  | stop none => simp at split
  | @place placed rest g ready least further ih =>
    cases before with
    | nil =>
      obtain ⟨rfl, rfl⟩ := List.cons.inj split
      simpa using ⟨ready, least⟩
    | cons b before =>
      obtain ⟨rfl, rest⟩ := List.cons.inj split
      simpa using ih rest

/-- In the end no family is ready. -/
theorem at_end (greedy : Greedy templates placed order) (f : String) : ¬ Ready templates (placed ++ order) f := by
  induction greedy with
  | stop none => simpa using none f
  | place ready least further ih => simpa using ih

theorem nodup (greedy : Greedy templates placed order) (before : placed.Nodup) : (placed ++ order).Nodup := by
  induction greedy with
  | stop none => simpa using before
  | @place placed rest f ready least further ih =>
    have next : (placed ++ [f]).Nodup :=
      (List.nodup_cons.mpr ⟨ready.notMem, before⟩).perm (List.perm_append_singleton f placed).symm
    simpa using ih next

theorem subset (greedy : Greedy templates placed order) : order ⊆ templates.map Template.family := by
  induction greedy with
  | stop none => exact List.nil_subset _
  | place ready least further ih => exact List.cons_subset.mpr ⟨ready.mem, ih⟩

/-- A family stands after all of its dependencies. -/
theorem dependencies_before (greedy : Greedy templates placed order)
    (distinct : (templates.map Template.family).Nodup) {before after : List String} {t : Template}
    (listed : t ∈ templates) (split : order = before ++ t.family :: after) :
    ∀ d ∈ inside templates t, d ∈ placed ++ before := by
  obtain ⟨⟨u, listed', same, _, all⟩, _⟩ := greedy.at_place split
  rwa [List.inj_on_of_nodup_map distinct listed listed' same.symm]

/-- A family that is not placed waits for one that is not. -/
theorem waits (greedy : Greedy templates [] order) {t : Template} (listed : t ∈ templates) (left : t.family ∉ order) :
    ∃ d ∈ inside templates t, d ∉ order := by
  by_contra all
  push Not at all
  exact greedy.at_end t.family ⟨t, listed, rfl, left, all⟩

end Greedy

/-! ### Dependencies -/

theorem mem_inside {t : Template} {d : String} : d ∈ inside templates t ↔
    d ∈ t.requires ∧ d ≠ t.family ∧ d ∈ templates.map Template.family := by
  simp [inside, Template.dependencies, Ascending.mem_ofList, and_assoc]

theorem nodup_inside (templates : List Template) (t : Template) : (inside templates t).Nodup :=
  (Ascending.nodup_ofList _).filter _

theorem nodup_dependents (distinct : (templates.map Template.family).Nodup) (family : String) :
    (dependents templates family).Nodup :=
  distinct.sublist (List.filter_sublist.map _)

theorem mem_dependents (distinct : (templates.map Template.family).Nodup) {t : Template} (listed : t ∈ templates)
    {family : String} : t.family ∈ dependents templates family ↔ family ∈ inside templates t := by
  simp only [dependents, List.mem_map, List.mem_filter, List.contains_iff_mem]
  constructor
  · rintro ⟨u, ⟨listed', depends⟩, same⟩
    exact List.inj_on_of_nodup_map distinct listed' listed same ▸ depends
  · exact fun depends => ⟨t, ⟨listed, depends⟩, rfl⟩

/-- The number of dependencies that are not placed. -/
def missing (templates : List Template) (placed : List String) (t : Template) : ℕ :=
  ((inside templates t).filter (· ∉ placed)).length

theorem missing_eq_zero {placed : List String} {t : Template} :
    missing templates placed t = 0 ↔ ∀ d ∈ inside templates t, d ∈ placed := by
  simp [missing, List.filter_eq_nil_iff]

theorem missing_nil (t : Template) : missing templates [] t = (inside templates t).length := by
  simp [missing]

variable (templates) in
/-- Placing a family lowers the count of a template that depends on it by one. -/
theorem missing_append {placed : List String} {f : String} (new : f ∉ placed) (t : Template) :
    missing templates placed t = missing templates (placed ++ [f]) t + if f ∈ inside templates t then 1 else 0 := by
  have nodup := nodup_inside templates t
  unfold missing
  generalize inside templates t = ds at nodup
  induction ds with
  | nil => rfl
  | cons d ds ih =>
    obtain ⟨notIn, nodup⟩ := List.nodup_cons.mp nodup
    have rest := ih nodup
    by_cases same : d = f
    · subst same
      rw [if_neg notIn] at rest
      rw [List.filter_cons_of_pos (by simpa using new), List.filter_cons_of_neg (by simp), List.length_cons, rest]
      simp
    · have counted : f ∈ d :: ds ↔ f ∈ ds := by simp [Ne.symm same]
      simp only [counted]
      by_cases old : d ∈ placed
      · rwa [List.filter_cons_of_neg (by simpa using old), List.filter_cons_of_neg (by simp [old])]
      · rw [List.filter_cons_of_pos (by simpa using old), List.filter_cons_of_pos (by simp [old, same]),
          List.length_cons, List.length_cons, rest]
        omega

/-! ### The queue -/

theorem lower_of_none {q : Queue} {f : String} (absent : q.waiting.get? f = none) : lower templates q f = q := by
  rw [lower, absent]

theorem lower_of_some {q : Queue} {f : String} {n : ℕ} (count : q.waiting.get? f = some n) :
    lower templates q f =
      ⟨if n - 1 = 0 then Ascending.insert (rank templates f) q.ready else q.ready, q.waiting.insert f (n - 1)⟩ := by
  rw [lower, count]
  dsimp only
  split <;> rfl

theorem get?_lower (q : Queue) (f g : String) : (lower templates q f).waiting.get? g =
    if g = f then (q.waiting.get? g).map (· - 1) else q.waiting.get? g := by
  cases count : q.waiting.get? f with
  | none =>
    rw [lower_of_none count]
    split
    · next same => rw [same, count, Option.map_none]
    · rfl
  | some n =>
    rw [lower_of_some count, Keyed.get?_insert]
    split
    · next same => rw [same, count, Option.map_some]
    · rfl

theorem mem_ready_lower (q : Queue) (f : String) (r : Rank) : r ∈ (lower templates q f).ready ↔
    r ∈ q.ready ∨ (q.waiting.get? f).map (· - 1) = some 0 ∧ r = rank templates f := by
  cases count : q.waiting.get? f with
  | none => simp [lower_of_none count]
  | some n =>
    rw [lower_of_some count]
    dsimp only
    split
    · next zero => simp [Ascending.mem_insert, zero, or_comm]
    · next more => simp [more]

theorem ascends_lower {q : Queue} (ascends : q.ready.Pairwise (· < ·)) (f : String) :
    (lower templates q f).ready.Pairwise (· < ·) := by
  cases count : q.waiting.get? f with
  | none => rwa [lower_of_none count]
  | some n =>
    rw [lower_of_some count]
    dsimp only
    split
    · exact Ascending.pairwise_insert _ ascends
    · exact ascends

variable (templates) in
/-- The effect of lowering the counts of distinct families: each is lowered by one, and those that reach zero are
ready. -/
theorem foldl_lower {families : List String} (nodup : families.Nodup) (q : Queue) (ascends : q.ready.Pairwise (· < ·)) :
    (∀ f, (families.foldl (lower templates) q).waiting.get? f =
      if f ∈ families then (q.waiting.get? f).map (· - 1) else q.waiting.get? f) ∧
    (∀ r, r ∈ (families.foldl (lower templates) q).ready ↔ r ∈ q.ready ∨
      ∃ f ∈ families, (q.waiting.get? f).map (· - 1) = some 0 ∧ r = rank templates f) ∧
    (families.foldl (lower templates) q).ready.Pairwise (· < ·) := by
  induction families generalizing q with
  | nil => simpa using ascends
  | cons g families ih =>
    obtain ⟨notIn, nodup⟩ := List.nodup_cons.mp nodup
    obtain ⟨waiting, ready, ascends'⟩ := ih nodup (lower templates q g) (ascends_lower ascends g)
    rw [List.foldl_cons]
    refine ⟨fun f => ?_, fun r => ?_, ascends'⟩
    · rw [waiting, get?_lower]
      by_cases same : f = g
      · subst same
        simp [notIn]
      · simp [same]
    · rw [ready, mem_ready_lower, or_assoc]
      refine or_congr_right ?_
      simp only [List.mem_cons, exists_eq_or_imp]
      refine or_congr_right (exists_congr fun f => and_congr_right fun hf => ?_)
      rw [get?_lower, if_neg fun same : f = g => notIn (same ▸ hf)]

/-- The queue after some families are placed. -/
structure Tracks (templates : List Template) (placed : List String) (q : Queue) : Prop where
  counts : ∀ t ∈ templates, q.waiting.get? t.family = some (missing templates placed t)
  ready : ∀ r, r ∈ q.ready ↔ ∃ f, Ready templates placed f ∧ r = rank templates f
  ascends : q.ready.Pairwise (· < ·)
  closed : ∀ t ∈ templates, t.family ∈ placed → ∀ d ∈ inside templates t, d ∈ placed

theorem ready_iff {placed : List String} {f : String} : Ready templates placed f ↔
    ∃ t ∈ templates, t.family = f ∧ f ∉ placed ∧ missing templates placed t = 0 := by
  simp only [Ready, missing_eq_zero]

/-- What is ready after `f` is placed was ready before or waited for `f` only. -/
theorem ready_append (distinct : (templates.map Template.family).Nodup) {placed : List String} {q : Queue}
    (tracks : Tracks templates placed q) {f : String} (ready : Ready templates placed f) (g : String) :
    Ready templates (placed ++ [f]) g ↔ Ready templates placed g ∧ g ≠ f ∨
      g ∈ dependents templates f ∧ (q.waiting.get? g).map (· - 1) = some 0 := by
  simp only [ready_iff, List.mem_append, List.mem_singleton, not_or]
  constructor
  · rintro ⟨t, listed, rfl, ⟨new, apart⟩, zero⟩
    have count := missing_append templates ready.notMem t
    by_cases depends : f ∈ inside templates t
    · rw [if_pos depends, zero] at count
      exact .inr ⟨(mem_dependents distinct listed).mpr depends, by simp [tracks.counts t listed, count]⟩
    · rw [if_neg depends, zero] at count
      exact .inl ⟨⟨t, listed, rfl, new, count⟩, apart⟩
  · rintro (⟨⟨t, listed, rfl, new, zero⟩, apart⟩ | ⟨depends, lowered⟩)
    · have count := missing_append templates ready.notMem t
      exact ⟨t, listed, rfl, ⟨new, apart⟩, by omega⟩
    · obtain ⟨t, inList, rfl⟩ := List.mem_map.mp depends
      have listed := (List.mem_filter.mp inList).1
      have depends := (mem_dependents distinct listed).mp depends
      have count := missing_append templates ready.notMem t
      rw [if_pos depends] at count
      simp only [tracks.counts t listed, Option.map_some, Option.some.injEq] at lowered
      have apart : t.family ≠ f := fun same => (mem_inside.mp depends).2.1 same.symm
      exact ⟨t, listed, rfl, ⟨fun old => ready.notMem (tracks.closed t listed old f depends), apart⟩, by omega⟩

/-- Placing the first family of the queue. -/
theorem Tracks.place (distinct : (templates.map Template.family).Nodup) {placed : List String} {r : Rank}
    {rest : List Rank} {waiting : Keyed ℕ} (tracks : Tracks templates placed ⟨r :: rest, waiting⟩) :
    Ready templates placed r.name ∧
    (∀ g, Ready templates placed g → g ≠ r.name → rank templates r.name < rank templates g) ∧
    Tracks templates (placed ++ [r.name]) ((dependents templates r.name).foldl (lower templates) ⟨rest, waiting⟩) := by
  obtain ⟨f, ready, rfl⟩ := (tracks.ready r).mp List.mem_cons_self
  rw [name_rank]
  obtain ⟨least, ascends⟩ := List.pairwise_cons.mp tracks.ascends
  obtain ⟨counts', ready', ascends'⟩ :=
    foldl_lower templates (nodup_dependents distinct f) ⟨rest, waiting⟩ ascends
  refine ⟨ready, fun g readyg apart => ?_, ?_, fun r => ?_, ascends', ?_⟩
  · rcases List.mem_cons.mp ((tracks.ready _).mpr ⟨g, readyg, rfl⟩) with same | later
    · exact absurd (rank_injective templates same) apart
    · exact least _ later
  · intro t listed
    have count := missing_append templates ready.notMem t
    have before : waiting.get? t.family = some (missing templates placed t) := tracks.counts t listed
    rw [counts']
    simp only [mem_dependents distinct listed, before]
    split
    · next depends =>
      rw [if_pos depends] at count
      simp [count]
    · next depends =>
      rw [if_neg depends] at count
      rw [count, Nat.add_zero]
  · have others : ∀ r, r ∈ rest ↔ ∃ g, (Ready templates placed g ∧ g ≠ f) ∧ r = rank templates g := fun r => by
      constructor
      · intro hr
        obtain ⟨g, readyg, rfl⟩ := (tracks.ready r).mp (List.mem_cons_of_mem _ hr)
        refine ⟨g, ⟨readyg, fun same => ?_⟩, rfl⟩
        subst same
        exact irrefl_of (· < ·) _ (least _ hr)
      · rintro ⟨g, ⟨readyg, apart⟩, rfl⟩
        rcases List.mem_cons.mp ((tracks.ready _).mpr ⟨g, readyg, rfl⟩) with same | later
        · exact absurd (rank_injective templates same) apart
        · exact later
    rw [ready', others]
    simp only [ready_append distinct tracks ready]
    constructor
    · rintro (⟨g, old, rfl⟩ | ⟨g, depends, lowered, rfl⟩)
      · exact ⟨g, .inl old, rfl⟩
      · exact ⟨g, .inr ⟨depends, lowered⟩, rfl⟩
    · rintro ⟨g, old | ⟨depends, lowered⟩, rfl⟩
      · exact .inl ⟨g, old, rfl⟩
      · exact .inr ⟨g, depends, lowered, rfl⟩
  · intro t listed inPlaced d depends
    obtain ⟨u, listed', same, _, all⟩ := ready
    rcases List.mem_append.mp inPlaced with old | here
    · exact List.mem_append_left _ (tracks.closed t listed old d depends)
    · have : t = u := List.inj_on_of_nodup_map distinct listed listed' ((List.mem_singleton.mp here).trans same.symm)
      exact List.mem_append_left _ (all d (this ▸ depends))

/-! ### Runs -/

/-- Lowers the count of one family, unless it is zero already. -/
def lower? (templates : List Template) (q : Queue) (family : String) : Option Queue :=
  if q.waiting.get? family = some 0 then none else some (lower templates q family)

/-- The queue is emptied, without a bound on the number of steps, and no count falls below zero on the way. The families
are placed in this order. -/
inductive Drains (templates : List Template) : Queue → List String → Prop
  | stop {waiting : Keyed ℕ} : Drains templates ⟨[], waiting⟩ []
  | place {next : Rank} {rest : List Rank} {waiting : Keyed ℕ} {q : Queue} {order : List String}
      (lowered : (dependents templates next.name).foldlM (lower? templates) ⟨rest, waiting⟩ = some q)
      (further : Drains templates q order) : Drains templates ⟨next :: rest, waiting⟩ (next.name :: order)

/-- Distinct families whose counts are not zero are all lowered. -/
theorem foldlM_lower? : ∀ {families : List String} {q : Queue}, families.Nodup →
    (∀ f ∈ families, q.waiting.get? f ≠ some 0) →
    families.foldlM (lower? templates) q = some (families.foldl (lower templates) q)
  | [], q, _, _ => rfl
  | f :: families, q, nodup, positive => by
      obtain ⟨notIn, nodup⟩ := List.nodup_cons.mp nodup
      obtain ⟨here, others⟩ := List.forall_mem_cons.mp positive
      rw [List.foldlM_cons, lower?, if_neg here]
      refine foldlM_lower? nodup fun g hg => ?_
      rw [get?_lower, if_neg fun same : g = f => notIn (same ▸ hg)]
      exact others g hg

/-- A family that depends on one which is not placed waits for it. -/
theorem Tracks.waits {placed : List String} {q : Queue} (tracks : Tracks templates placed q) {f : String}
    (new : f ∉ placed) : ∀ g ∈ dependents templates f, q.waiting.get? g ≠ some 0 := by
  intro g depends
  obtain ⟨t, inList, rfl⟩ := List.mem_map.mp depends
  obtain ⟨listed, depends⟩ := List.mem_filter.mp inList
  rw [tracks.counts t listed, ne_eq, Option.some.injEq, missing_eq_zero]
  exact fun all => new (all f (by simpa using depends))

/-- Placing lowers no count below zero. -/
theorem Tracks.lowered (distinct : (templates.map Template.family).Nodup) {placed : List String} {r : Rank}
    {rest : List Rank} {waiting : Keyed ℕ} (tracks : Tracks templates placed ⟨r :: rest, waiting⟩) :
    (dependents templates r.name).foldlM (lower? templates) ⟨rest, waiting⟩ =
      some ((dependents templates r.name).foldl (lower templates) ⟨rest, waiting⟩) :=
  foldlM_lower? (nodup_dependents distinct r.name) (tracks.waits (tracks.place distinct).1.notMem)

/-- A run from a queue that keeps track is greedy. -/
theorem Drains.greedy (distinct : (templates.map Template.family).Nodup) {q : Queue} {order : List String}
    (drains : Drains templates q order) : ∀ {placed : List String}, Tracks templates placed q →
      Greedy templates placed order := by
  induction drains with
  | stop => exact fun tracks => .stop fun f ready => by simpa using (tracks.ready _).mpr ⟨f, ready, rfl⟩
  | place lowered _ ih =>
    intro placed tracks
    obtain ⟨ready, least, further⟩ := tracks.place distinct
    obtain rfl := Option.some.inj (lowered.symm.trans (tracks.lowered distinct))
    exact .place ready least (ih further)

/-- Placing goes on until the queue is empty, given enough steps for what is not placed. -/
theorem drains_placeAll (distinct : (templates.map Template.family).Nodup) : ∀ (more : ℕ) {placed : List String}
    {q : Queue}, Tracks templates placed q → placed.Nodup → placed ⊆ templates.map Template.family →
    templates.length ≤ placed.length + more → Drains templates q (placeAll templates more q)
  | _, placed, ⟨[], waiting⟩, _, _, _, _ => by
      rw [show placeAll templates _ ⟨[], waiting⟩ = [] by unfold placeAll; split <;> rfl]
      exact .stop
  | 0, placed, ⟨r :: rest, waiting⟩, tracks, nodup, known, enough => by
      -- everything is placed, so nothing can be ready
      have ready := (tracks.place distinct).1
      have all := (nodup.subperm known).perm_of_length_le (by simpa using enough)
      exact absurd (all.mem_iff.mpr ready.mem) ready.notMem
  | more + 1, placed, ⟨r :: rest, waiting⟩, tracks, nodup, known, enough => by
      obtain ⟨ready, _, further⟩ := tracks.place distinct
      have nodup' : (placed ++ [r.name]).Nodup :=
        (List.nodup_cons.mpr ⟨ready.notMem, nodup⟩).perm (List.perm_append_singleton r.name placed).symm
      have known' : placed ++ [r.name] ⊆ templates.map Template.family :=
        List.append_subset.mpr ⟨known, List.cons_subset.mpr ⟨ready.mem, List.nil_subset _⟩⟩
      exact .place (tracks.lowered distinct) (drains_placeAll distinct more further nodup' known' (by
        rw [List.length_append, List.length_singleton]
        omega))

/-! ### The computed order -/

/-- Nothing is placed, and the families without dependencies are ready. -/
def start (templates : List Template) : Queue :=
  ⟨Ascending.ofList (((counts templates).filter (·.2 = 0)).map fun e => rank templates e.1), counts templates⟩

/-- For templates of distinct names there is one count for each. -/
theorem perm_counts (distinct : (templates.map Template.family).Nodup) :
    (counts templates).Perm (templates.map fun t => (t.family, (inside templates t).length)) :=
  Keyed.perm_ofList (by simpa [Function.comp_def] using distinct)

/-- The queue at the start. -/
theorem tracks_start (distinct : (templates.map Template.family).Nodup) : Tracks templates [] (start templates) := by
  have entries : ∀ e, e ∈ counts templates ↔ ∃ t ∈ templates, (t.family, (inside templates t).length) = e := fun e => by
    rw [(perm_counts distinct).mem_iff, List.mem_map]
  refine ⟨fun t listed => ?_, fun r => ?_, Ascending.pairwise_ofList _, fun t _ none => by cases none⟩
  · rw [missing_nil]
    exact (Keyed.get?_eq_some_iff (Keyed.ascends_ofList _)).mpr ((entries _).mpr ⟨t, listed, rfl⟩)
  · simp only [start, Ascending.mem_ofList, List.mem_map, List.mem_filter, decide_eq_true_eq, entries, ready_iff,
      missing_nil, List.not_mem_nil, not_false_eq_true, true_and]
    constructor
    · rintro ⟨_, ⟨⟨t, listed, rfl⟩, zero⟩, rfl⟩
      exact ⟨t.family, ⟨t, listed, rfl, zero⟩, rfl⟩
    · rintro ⟨_, ⟨t, listed, rfl, zero⟩, rfl⟩
      exact ⟨_, ⟨⟨t, listed, rfl⟩, zero⟩, rfl⟩

/-- **The order of registration is that of a run which empties the queue.** -/
theorem drains_ofTemplates (distinct : (templates.map Template.family).Nodup) :
    Drains templates (start templates) (ofTemplates templates).order := by
  have enough : templates.length ≤ (counts templates).length := by
    rw [(perm_counts distinct).length_eq, List.length_map]
  exact drains_placeAll distinct _ (tracks_start distinct) List.nodup_nil (List.nil_subset _) (by simpa using enough)

/-- **The order of registration is greedy.** -/
theorem greedy_ofTemplates (distinct : (templates.map Template.family).Nodup) :
    Greedy templates [] (ofTemplates templates).order :=
  (drains_ofTemplates distinct).greedy distinct (tracks_start distinct)

/-- What is left over are the families without a place. -/
theorem mem_cyclic (distinct : (templates.map Template.family).Nodup) {f : String} :
    f ∈ (ofTemplates templates).cyclic ↔
      f ∈ templates.map Template.family ∧ f ∉ (ofTemplates templates).order := by
  have entries : f ∈ (counts templates).keys ↔ f ∈ templates.map Template.family := by
    rw [Keyed.keys, ((perm_counts distinct).map Prod.fst).mem_iff]
    simp [Function.comp_def]
  rw [← entries]
  simp [ofTemplates]

end Placement

end ForeignBridge
