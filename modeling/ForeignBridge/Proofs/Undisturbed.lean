import ForeignBridge.Proofs.Interruptions

/-! # Conversions tolerate collections

A runtime may collect before it makes a slot. Which slots these are is left open (`collectingBefore`): each slot that a
conversion makes has a handle of its own, so a choice of handles is a choice of moments.

By induction on the value, a conversion that is interrupted ends as the plain one does (`alike_toForeignAt`). What this
says of the slots that it makes, and of their roots, is put together in `conversions_tolerate_collections`. It holds
where the roots of the held cells outlast the cells that only the store holds (`Anchored`). That each slot has a root
does not suffice for it (`early_cells_lose_elements`). -/

namespace ForeignBridge

namespace Store

/-- A full collection, if the handle that is given out next is one of the chosen ones. -/
def pause (chosen : Handle → Bool) (s : Store) : Store := if chosen s.nextHandle then s.collect.2 else s

/-- Makes slots for data, and collects before it makes those of the chosen handles. -/
def collectingBefore (chosen : Handle → Bool) : Allocator := fun data s => (s.pause chosen).construct data

theorem Building.pause {s t w : Store} {o made : Multiset CellId} (building : s.Building o t w made)
    (chosen : Handle → Bool) : s.Building o t (w.pause chosen) made := by
  unfold Store.pause
  split
  · exact building.collect
  · exact building

end Store

namespace ConversionPolicy

open Store

variable {p : ConversionPolicy} {v : Value CellId} {s t w : Store} {o made : Multiset CellId} {c : CellId}
  {data : Datum CellId} {parts : List CellId}

/-! ### The same end -/

/-- Two runs have come to the same end: both have failed, or they hand back the same cells and hold the rest. -/
inductive Alike {α : Type} (s : Store) (o made : Multiset CellId) (cells : α → List CellId) :
    Except BridgeError α × Store → Except BridgeError α × Store → Prop where
  | error (e : BridgeError) {t w : Store} (spared : s.Spared o t w made) :
      Alike s o made cells (.error e, t) (.error e, w)
  | ok (a : α) {t w : Store} (building : s.Building o t w (cells a + made)) :
      Alike s o made cells (.ok a, t) (.ok a, w)

namespace Alike

theorem one {c' : CellId} (same : c' = c) (building : s.Building o t w (c ::ₘ made)) :
    Alike s o made (fun c => [c]) (.ok c, t) (.ok c', w) := by
  rw [same]
  refine .ok c ?_
  rwa [Multiset.coe_singleton, Multiset.singleton_add]

theorem of_one {plain paused : Except BridgeError CellId × Store}
    (alike : Alike s o made (fun c => [c]) plain paused) (built : plain.1 = .ok c) :
    s.Building o plain.2 paused.2 (c ::ₘ made) := by
  cases alike with
  | error e spared => cases built
  | ok a building =>
    cases built
    rwa [Multiset.coe_singleton, Multiset.singleton_add] at building

theorem outcome {α : Type} {cells : α → List CellId} {plain paused : Except BridgeError α × Store}
    (alike : Alike s o made cells plain paused) : paused.1 = plain.1 := by
  cases alike <;> rfl

theorem spared {α : Type} {cells : α → List CellId} {plain paused : Except BridgeError α × Store}
    (alike : Alike s o made cells plain paused) : ∃ made, s.Spared o plain.2 paused.2 made := by
  cases alike with
  | error e spared => exact ⟨_, spared⟩
  | ok a building => exact ⟨_, building.toSpared⟩

end Alike

/-! ### The keys and values of a record -/

theorem flatMap_pairUp {hs : List Handle} (even : Even hs.length) :
    (Datum.pairUp hs).flatMap (fun kv => [kv.1, kv.2]) = hs := by
  induction hs using Datum.pairUp.induct with
  | case1 k v rest ih =>
    rw [Datum.pairUp, List.flatMap_cons, ih (by simpa [Nat.even_add_one] using even)]
    rfl
  | case2 rest short =>
    rcases rest with _ | ⟨k, _ | ⟨v, rest⟩⟩
    · rfl
    · simp at even
    · exact absurd rfl (short k v rest)

theorem even_toForeignFields {alloc : Allocator} {depth : ℕ} : ∀ {fields : List (String × Value CellId)} {s t : Store}
    {cs : List CellId}, p.toForeignFields alloc depth fields s = (.ok cs, t) → Even cs.length
  | [], s, t, cs, built => by
      unfold toForeignFields at built
      cases built
      exact .zero
  | (key, v) :: rest, s, t, cs, built => by
      unfold toForeignFields at built
      dsimp only at built
      split at built
      · cases built
      · split at built
        · cases built
        · next later =>
          cases built
          exact (even_toForeignFields later).add_one.add_one

/-! ### Interrupted and plain runs -/

section runs

variable (chosen : Handle → Bool)

theorem building_place (building : s.Building o t w made) (flat : data.handles = [])
    (outside : ∀ c ∈ data.references, c ∈ o) :
    (place (collectingBefore chosen) data w).1 = (place construct data t).1 ∧
      s.Building o (place construct data t).2 (place (collectingBefore chosen) data w).2
        ((place construct data t).1 ::ₘ made) := (building.pause chosen).place outside flat

theorem alike_place (building : s.Building o t w made) (flat : data.handles = [])
    (outside : ∀ c ∈ data.references, c ∈ o) :
    Alike s o made (fun c => [c])
      (.ok (place construct data t).1, (place construct data t).2)
      (.ok (place (collectingBefore chosen) data w).1, (place (collectingBefore chosen) data w).2) := by
  obtain ⟨same, placed⟩ := building_place chosen building flat outside
  exact .one same placed

/-- A value that is no container becomes plain data or a box. -/
theorem alike_leaf {k : NativeKind} (building : s.Building o t w made) (flat : data.handles = [])
    (plain : data.references = []) (outside : ∀ c ∈ v.references, c ∈ o) :
    let enclosed := if p.allows k then data else .host v
    Alike s o made (fun c => [c])
      (.ok (place construct enclosed t).1, (place construct enclosed t).2)
      (.ok (place (collectingBefore chosen) enclosed w).1, (place (collectingBefore chosen) enclosed w).2) := by
  apply alike_place chosen building
  · split
    · exact flat
    · rfl
  · split
    · simp [plain]
    · exact outside

/-- The parts of a container read the same in both runs. -/
theorem map_read (building : s.Building o t w (parts + made)) : parts.map w.read = parts.map t.read := by
  refine List.map_congr_left fun c hc => building.read_eq ?_
  exact Multiset.mem_add.mpr (.inl (Multiset.mem_add.mpr (.inl hc)))

theorem alike_placeContainer (building : s.Building o t w (parts + made)) (plain : data.references = [])
    (handles : data.handles = parts.map t.read) :
    Alike s o made (fun c => [c])
      (.ok (placeContainer construct data parts t).1, (placeContainer construct data parts t).2)
      (.ok (placeContainer (collectingBefore chosen) data parts w).1,
        (placeContainer (collectingBefore chosen) data parts w).2) := by
  obtain ⟨same, placed⟩ := (building.pause chosen).placeContainer plain handles
  exact .one same placed

mutual

/-- **An interrupted conversion ends as the plain one does.** -/
theorem alike_toForeignAt (p : ConversionPolicy) (depth : ℕ) : ∀ (v : Value CellId) {t w : Store}
    {made : Multiset CellId}, (∀ c ∈ v.references, c ∈ o) → s.Building o t w made →
    Alike s o made (fun c => [c]) (p.toForeignAt construct depth v t) (p.toForeignAt (collectingBefore chosen) depth v w)
  | .foreign c, t, w, made, outside, building | .function c _, t, w, made, outside, building => by
      unfold toForeignAt
      split
      · exact .error _ building.toSpared
      · have shared := building.share (outside c List.mem_cons_self)
        exact .one rfl shared
  | .nil, t, w, made, outside, building | .bool _, t, w, made, outside, building | .int _, t, w, made, outside, building
  | .float _, t, w, made, outside, building | .str _, t, w, made, outside, building
  | .symbol _, t, w, made, outside, building => by
      unfold toForeignAt
      split
      · exact .error _ building.toSpared
      · exact alike_leaf chosen building rfl rfl outside
  | .list items, t, w, made, outside, building => by
      unfold toForeignAt
      split
      · exact .error _ building.toSpared
      · dsimp only
        split
        · have alike := alike_toForeignItems p (depth + 1) items outside building
          generalize p.toForeignItems construct (depth + 1) items t = plain at alike ⊢
          generalize p.toForeignItems (collectingBefore chosen) (depth + 1) items w = paused at alike ⊢
          cases alike with
          | error e spared => exact .error e spared
          | ok parts building =>
            dsimp only [id] at building ⊢
            rw [map_read building]
            exact alike_placeContainer chosen building rfl rfl
        · exact alike_place chosen building rfl outside
  | .record fields, t, w, made, outside, building => by
      unfold toForeignAt
      split
      · exact .error _ building.toSpared
      · dsimp only
        split
        · have alike := alike_toForeignFields p (depth + 1) fields outside building
          have paired := @even_toForeignFields p construct (depth + 1) fields t
          generalize p.toForeignFields construct (depth + 1) fields t = plain at alike paired ⊢
          generalize p.toForeignFields (collectingBefore chosen) (depth + 1) fields w = paused at alike ⊢
          cases alike with
          | error e spared => exact .error e spared
          | @ok parts t w building =>
            -- no key and no value is left out of the dictionary
            have even : Even (parts.map t.read).length := by
              rw [List.length_map]
              exact paired rfl
            dsimp only [id] at building ⊢
            rw [map_read building]
            exact alike_placeContainer chosen building rfl (flatMap_pairUp even)
        · exact alike_place chosen building rfl outside

theorem alike_toForeignItems (p : ConversionPolicy) (depth : ℕ) : ∀ (items : List (Value CellId)) {t w : Store}
    {made : Multiset CellId}, (∀ c ∈ Value.referencesItems items, c ∈ o) → s.Building o t w made →
    Alike s o made id (p.toForeignItems construct depth items t)
      (p.toForeignItems (collectingBefore chosen) depth items w)
  | [], t, w, made, _, building => by
      refine .ok [] ?_
      rwa [id, Multiset.coe_nil, zero_add]
  | v :: rest, t, w, made, outside, building => by
      have head := alike_toForeignAt p depth v (fun c hc => outside c (List.mem_append_left _ hc)) building
      unfold toForeignItems
      generalize p.toForeignAt construct depth v t = plain at head ⊢
      generalize p.toForeignAt (collectingBefore chosen) depth v w = paused at head ⊢
      cases head with
      | error e spared => exact .error e spared
      | @ok c t w building =>
        rw [Multiset.coe_singleton, Multiset.singleton_add] at building
        have tail := alike_toForeignItems p depth rest (fun c hc => outside c (List.mem_append_right _ hc)) building
        dsimp only
        generalize p.toForeignItems construct depth rest t = plain at tail ⊢
        generalize p.toForeignItems (collectingBefore chosen) depth rest w = paused at tail ⊢
        cases tail with
        | error e spared => exact .error e spared.release
        | ok cs building =>
          refine .ok (c :: cs) ?_
          rwa [id, coe_cons_add]

theorem alike_toForeignFields (p : ConversionPolicy) (depth : ℕ) : ∀ (fields : List (String × Value CellId))
    {t w : Store} {made : Multiset CellId}, (∀ c ∈ Value.referencesFields fields, c ∈ o) → s.Building o t w made →
    Alike s o made id (p.toForeignFields construct depth fields t)
      (p.toForeignFields (collectingBefore chosen) depth fields w)
  | [], t, w, made, _, building => by
      refine .ok [] ?_
      rwa [id, Multiset.coe_nil, zero_add]
  | (key, v) :: rest, t, w, made, outside, building => by
      have plain : ∀ c ∈ (Datum.symbol key : Datum CellId).references, c ∈ o := fun c hc => by cases hc
      obtain ⟨same, building⟩ := building_place chosen building rfl plain
      unfold toForeignFields
      dsimp only
      generalize place construct (.symbol key) t = plain at same building ⊢
      generalize place (collectingBefore chosen) (.symbol key) w = paused at same building ⊢
      obtain ⟨k, t⟩ := plain
      obtain ⟨k', w⟩ := paused
      obtain rfl : k' = k := same
      have head := alike_toForeignAt p depth v (fun c hc => outside c (List.mem_append_left _ hc)) building
      dsimp only at head ⊢
      generalize p.toForeignAt construct depth v t = plain at head ⊢
      generalize p.toForeignAt (collectingBefore chosen) depth v w = paused at head ⊢
      cases head with
      | error e spared => exact .error e spared.release
      | @ok c t w building =>
        rw [Multiset.coe_singleton, Multiset.singleton_add] at building
        have tail := alike_toForeignFields p depth rest (fun c hc => outside c (List.mem_append_right _ hc)) building
        dsimp only
        generalize p.toForeignFields construct depth rest t = plain at tail ⊢
        generalize p.toForeignFields (collectingBefore chosen) depth rest w = paused at tail ⊢
        cases tail with
        | error e spared => exact .error e spared.release.release
        | ok cs building =>
          refine .ok (k' :: c :: cs) ?_
          rwa [id, coe_cons_add, coe_cons_add]

end

end runs

/-! ### The cell that is handed back -/

/-- The cell is new since `s`, and bound. -/
def Added (s t : Store) (c : CellId) : Prop := s.cells.size ≤ c.index ∧ t.binding? c = some (t.read c)

theorem added_place (data : Datum CellId) (s : Store) :
    Added s (place construct data s).2 (place construct data s).1 := by
  have bound := binding?_place data s
  exact ⟨new_place data s, (read_of_binding? bound).symm ▸ bound⟩

theorem added_placeContainer (converting : s.Converting o t parts) :
    Added s (placeContainer construct data parts t).2 (placeContainer construct data parts t).1 := by
  have new := new_place data t
  have apart : (place construct data t).1 ∉ parts := by
    intro inside
    have held : (place construct data t).1 ∈ (parts : Multiset CellId) + o + t.boxed :=
      Multiset.mem_add.mpr (.inl (Multiset.mem_add.mpr (.inl inside)))
    obtain ⟨cell, there⟩ := converting.balanced.mem_iff.mp held
    exact new.not_gt (lt_of_cell? there)
  have bound := (binding?_releaseAll parts apart).trans (binding?_place data t)
  exact ⟨converting.cells.trans new, (read_of_binding? bound).symm ▸ bound⟩

/-- A value that does not stand for itself gets a new cell. -/
theorem added_toForeign (balanced : s.Balanced (o + s.boxed)) (outside : ∀ c ∈ v.references, c ∈ o)
    (native : v.reference? = none) (built : p.toForeign v s = (.ok c, t)) : Added s t c := by
  unfold toForeign toForeignAt at built
  rw [if_neg (Nat.not_lt_zero _)] at built
  cases v with
  | foreign _ | function _ _ => cases native
  | nil | bool _ | int _ | float _ | str _ | symbol _ =>
    cases built
    exact added_place _ s
  | list items =>
    dsimp only at built
    split at built
    · split at built
      · cases built
      · next parts t' made =>
        cases built
        have leaves := leaves_toForeignItems Converting.invariant p 1 items outside (.start balanced)
        have converting := leaves.of_ok made
        rw [add_zero] at converting
        exact added_placeContainer converting
    · cases built
      exact added_place _ s
  | record fields =>
    dsimp only at built
    split at built
    · split at built
      · cases built
      · next parts t' made =>
        cases built
        have leaves := leaves_toForeignFields Converting.invariant p 1 fields outside (.start balanced)
        have converting := leaves.of_ok made
        rw [add_zero] at converting
        exact added_placeContainer converting
    · cases built
      exact added_place _ s

/-- A foreign object or function stands for itself. -/
theorem toForeign_of_reference (reference : v.reference? = some c) : p.toForeign v s = (.ok c, s.retain c) := by
  unfold toForeign toForeignAt
  rw [if_neg (Nat.not_lt_zero _)]
  cases v <;> cases reference <;> rfl

theorem mem_references (reference : v.reference? = some c) : c ∈ v.references := by
  cases v <;> cases reference <;> exact List.mem_cons_self

theorem new_toForeign_iff {h : Handle} (balanced : s.Balanced (o + s.boxed)) (outside : ∀ c ∈ v.references, c ∈ o)
    (built : p.toForeign v s = (.ok c, t)) :
    (s.cells.size ≤ c.index ∧ t.binding? c = some h) ↔ v.reference? = none ∧ h = t.read c := by
  cases reference : v.reference? with
  | none =>
    obtain ⟨new, bound⟩ := added_toForeign balanced outside reference built
    simp [new, bound, eq_comm]
  | some d =>
    refine iff_of_false (fun ⟨new, _⟩ => ?_) fun ⟨native, _⟩ => by cases native
    rw [toForeign_of_reference reference] at built
    cases built
    have held := outside c (mem_references reference)
    obtain ⟨cell, there⟩ := balanced.mem_iff.mp (Multiset.mem_add.mpr (.inl held))
    exact new.not_gt (lt_of_cell? there)

end ConversionPolicy

namespace Store

variable {s t w : Store} {o made : Multiset CellId} {c : CellId} {h : Handle}

/-! ### Roots -/

/-- Where all cells are held by others, the collections leave the bound cells as they are. -/
theorem Spared.boundCount_eq (spared : s.Spared o t w made) (outside : ∀ d, s.binding? d = some h → d ∈ o) :
    w.boundCount h = t.boundCount h := by
  rw [← card_boundCells, ← card_boundCells]
  congr 1
  ext d
  rw [mem_boundCells, mem_boundCells]
  constructor
  · intro bound
    obtain ⟨cell, there, _⟩ := cell?_of_binding? bound
    exact (spared.agree d cell there).symm.trans bound
  · intro bound
    obtain ⟨cell, there, _⟩ := cell?_of_binding? bound
    refine (spared.binding?_eq ?_).trans bound
    by_cases early : d.index < s.cells.size
    · exact Multiset.mem_add.mpr (.inr (outside d ((spared.plain.bound d early).symm.trans bound)))
    · exact Multiset.mem_add.mpr (.inl (spared.plain.mem_made spared.anchored.balanced (not_lt.mp early) there))

theorem Spared.rootCount_eq (spared : s.Spared o t w made) (accounts : s.Accounts o t)
    (outside : ∀ d, s.binding? d = some h → d ∈ o) : w.rootCount h = t.rootCount h := by
  by_cases there : h.isNull = false
  · have covered : s.boundCount h ≤ s.rootCount h + s.heldCount o h := by
      rw [← card_boundCells, heldCount]
      refine (Finset.card_le_card fun d hd => ?_).trans (Nat.le_add_left _ _)
      have bound := mem_boundCells.mp hd
      exact Finset.mem_filter.mpr ⟨Multiset.mem_toFinset.mpr (outside d bound), bound⟩
    have interrupted := spared.accounts h there covered
    have plain := accounts h there covered
    have same := spared.boundCount_eq outside
    omega
  · obtain rfl := Handle.isNull_iff.mp (by simpa using there)
    rfl

/-- A conversion that holds one cell has added one root if the cell is new, and none otherwise. -/
theorem Converting.rootCount_eq_of_one (converting : s.Converting o t (c ::ₘ 0)) (anchored : s.Anchored o)
    (h : Handle) : t.rootCount h = s.rootCount h + if s.cells.size ≤ c.index ∧ t.binding? c = some h then 1 else 0 := by
  by_cases issued : s.Issued h
  · rw [converting.rootCount_eq issued, if_neg, add_zero]
    rintro ⟨new, bound⟩
    exact converting.fresh c h new bound issued
  · have only (d : CellId) : t.binding? d = some h ↔ d = c ∧ s.cells.size ≤ c.index ∧ t.binding? c = some h := by
      refine ⟨fun bound => ?_, fun ⟨same, _, bound⟩ => same ▸ bound⟩
      have new : s.cells.size ≤ d.index := by
        by_contra early
        have count := boundCount_pos ((converting.bound d (not_le.mp early)).symm.trans bound)
        exact count.ne' (anchored.boundCount_eq_zero issued)
      obtain ⟨cell, there, _⟩ := cell?_of_binding? bound
      have made := converting.mem_made anchored.balanced new there
      obtain rfl := (Multiset.mem_cons.mp made).resolve_right (Multiset.notMem_zero d)
      exact ⟨rfl, new, bound⟩
    have cells : t.boundCells h = if s.cells.size ≤ c.index ∧ t.binding? c = some h then {c} else ∅ := by
      ext d
      rw [mem_boundCells, only]
      split
      · next new => simp [new]
      · next old => simp [old]
    have counted := converting.counted h issued
    rw [anchored.boundCount_eq_zero issued, zero_add, ← card_boundCells, cells] at counted
    rw [rootCount_of_not_issued issued, zero_add, ← counted]
    split <;> rfl

/-- **Conversions tolerate collections.** Others hold the cells `o`, whose slots stay rooted when the cells go that only
the store holds, and among them all cells of the value. The runtime may collect before it makes any of the slots of a
conversion. Then the conversion comes to the same outcome, and every slot that it has made is there with its object, also
where it fails. Whatever can be reached from the cell that it hands back, or from the cells that others hold, is the
same. The conversion adds one root, to the slot that is handed back, and none for a foreign object or function; the
collections make no difference to roots except where they take cells that nobody but the store held. -/
theorem conversions_tolerate_collections (p : ConversionPolicy) (v : Value CellId) (s : Store) (o : Multiset CellId)
    (anchored : s.Anchored o) (held : ∀ c ∈ v.references, c ∈ o) (chosen : Handle → Bool) :
    let plain := p.toForeign v s
    let paused := p.toForeignAt (collectingBefore chosen) 0 v s
    paused.1 = plain.1 ∧
    (∀ h, ¬ s.Issued h → plain.2.Issued h → paused.2.isLive h = true ∧ paused.2.object? h = plain.2.object? h) ∧
    ∀ c, plain.1 = .ok c →
      (∀ d ∈ c ::ₘ o, paused.2.read d = plain.2.read d ∧
        ∀ k, plain.2.Reaches (plain.2.read d) k → paused.2.object? k = plain.2.object? k) ∧
      (∀ h, plain.2.rootCount h = s.rootCount h + if v.reference? = none ∧ h = plain.2.read c then 1 else 0) ∧
      ∀ h, (∀ d, s.binding? d = some h → d ∈ o) → paused.2.rootCount h = plain.2.rootCount h := by
  intro plain paused
  have alike : ConversionPolicy.Alike s o 0 (fun c => [c]) plain paused :=
    ConversionPolicy.alike_toForeignAt chosen p 0 v held (.start anchored)
  -- a run that is never interrupted is the plain run
  have itself : ConversionPolicy.Alike s o 0 (fun c => [c]) plain plain :=
    ConversionPolicy.alike_toForeignAt (fun _ => false) p 0 v held (.start anchored)
  obtain ⟨_, spared⟩ := alike.spared
  refine ⟨alike.outcome, fun h unknown issued => ?_, fun c built => ?_⟩
  · exact ⟨spared.isLive_of_new unknown (spared.live h unknown issued), spared.fresh h unknown⟩
  · have building := alike.of_one built
    refine ⟨fun d hd => ?_, fun h => ?_, fun h outside => ?_⟩
    · rw [← Multiset.zero_add o, ← Multiset.cons_add] at hd
      exact ⟨building.read_eq hd, building.spared d hd⟩
    · have result : plain = (.ok c, plain.2) := Prod.ext built rfl
      rw [building.plain.rootCount_eq_of_one anchored]
      congr 1
      exact if_congr (ConversionPolicy.new_toForeign_iff anchored.balanced held result) rfl rfl
    · exact building.rootCount_eq (itself.of_one built).accounts outside

end Store

namespace Session

/-- A global with a cell that is bound to it, and a number that nothing refers to. -/
def heldAndGarbage : Script :=
  [(.defineGlobal "" "v" (.plain (.int 7)), some "v"), (.newBound (.named "v"), some "c"),
    (.construct (.plain (.int 9)), some "g")]

/-- A list is built with a collection before each of its slots: the number is reclaimed, the list is not. -/
theorem conversions_tolerate_collections_list :
    let s := (ending ⟨1, 0, 0, [], []⟩ [] .full 10000 heldAndGarbage).store
    let v : Value CellId := .list [.foreign ⟨0⟩, .int 1, .list [.int 2]]
    let plain := ConversionPolicy.full.toForeign v s
    let paused := ConversionPolicy.full.toForeignAt (Store.collectingBefore fun _ => true) 0 v s
    plain.2.isLive ⟨3⟩ = true ∧ paused.2.isLive ⟨3⟩ = false ∧ paused.1 = .ok ⟨4⟩ ∧
      ∀ k, plain.2.Reaches ⟨7⟩ k → paused.2.object? k = plain.2.object? k := by
  have gone : (ConversionPolicy.full.toForeignAt (Store.collectingBefore fun _ => true) 0
      (.list [.foreign ⟨0⟩, .int 1, .list [.int 2]])
      (ending ⟨1, 0, 0, [], []⟩ [] .full 10000 heldAndGarbage).store).2.isLive ⟨3⟩ = false := by cbv
  intro s v plain paused
  have sound : (ending ⟨1, 0, 0, [], []⟩ [] .full 10000 heldAndGarbage).Sound :=
    sound_ending (by decide +kernel) (by decide +kernel)
  have live : ∀ c h, s.binding? c = some h → h.isNull = false → s.isLive h = true := by
    intro c h bound _
    have inside := Store.lt_of_binding? bound
    have cells : s.cells.size = 1 := by decide +kernel
    obtain rfl : c = ⟨0⟩ := congrArg CellId.mk (by omega)
    have here : s.binding? ⟨0⟩ = some ⟨2⟩ := by decide +kernel
    obtain rfl := Option.some.inj (here.symm.trans bound)
    decide +kernel
  obtain ⟨outcome, _, built⟩ := Store.conversions_tolerate_collections .full v s _
    (.of_sound sound live) (by decide +kernel) fun _ => true
  have made : plain.1 = .ok ⟨4⟩ := by decide +kernel
  have last : plain.2.read ⟨4⟩ = ⟨7⟩ := by decide +kernel
  obtain ⟨same, _⟩ := built ⟨4⟩ made
  have reached := (same ⟨4⟩ (Multiset.mem_cons_self _ _)).2
  change ∀ k, plain.2.Reaches (plain.2.read ⟨4⟩) k → _ at reached
  rw [last] at reached
  exact ⟨by decide +kernel, gone, outcome.trans made, reached⟩

/-- A cell that is bound to the third slot before that is there, and then belongs to a box that nothing refers to. The
third slot is made, and another cell is bound to it and held. -/
def earlyAndHeld : Store := (ending ⟨1, 0, 0, [], []⟩ [] .full 10000
  [(.newBound (.number ⟨3⟩), some "e"), (.box (.foreign (.splice "e")), none), (.drop "e", none),
    (.construct (.plain (.int 7)), none), (.newBound (.number ⟨3⟩), some "c")]).store

/-- A list of what the held cell refers to and two numbers. -/
def heldAndNumbers : Value CellId := .list [.foreign ⟨2⟩, .int 1, .int 2]

/-- **It is not enough that the slot of every cell is rooted.** The root of the third slot goes with the cell in the box.
So the slot is reclaimed by the collection after the one that takes the box, while a list is built with it. -/
theorem early_cells_lose_elements :
    let plain := ConversionPolicy.full.toForeign heldAndNumbers earlyAndHeld
    let paused := ConversionPolicy.full.toForeignAt (Store.collectingBefore fun _ => true) 0 heldAndNumbers earlyAndHeld
    (∀ c h, earlyAndHeld.binding? c = some h → 0 < earlyAndHeld.rootCount h) ∧
      (earlyAndHeld.cell? ⟨2⟩).map Cell.holders = some 1 ∧ plain.1 = .ok ⟨5⟩ ∧ paused.1 = .ok ⟨5⟩ ∧
      plain.2.read ⟨5⟩ = ⟨6⟩ ∧ paused.2.read ⟨5⟩ = ⟨6⟩ ∧ plain.2.successors ⟨6⟩ = [⟨3⟩, ⟨4⟩, ⟨5⟩] ∧
      paused.2.successors ⟨6⟩ = [⟨3⟩, ⟨4⟩, ⟨5⟩] ∧ plain.2.isLive ⟨3⟩ = true ∧ paused.2.isLive ⟨3⟩ = false := by
  refine ⟨fun c h bound => ?_, by decide +kernel, by decide +kernel, by cbv, by decide +kernel, by cbv,
    by decide +kernel, by cbv, by decide +kernel, by cbv⟩
  have cells : earlyAndHeld.cells.size = 3 := by decide +kernel
  have all : ∀ i < 3, ∀ h, earlyAndHeld.binding? ⟨i⟩ = some h → h = ⟨3⟩ := by decide +kernel
  obtain rfl := all c.index (cells ▸ Store.lt_of_binding? bound) h bound
  decide +kernel

end Session

end ForeignBridge
