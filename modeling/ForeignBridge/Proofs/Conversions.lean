import ForeignBridge.Proofs.Calls
import ForeignBridge.Bridge

/-! # Conversions as moves

A conversion is a sequence of moves. When it succeeds, the cells of its result are held from outside besides those
that were held before; when it fails, what it made on the way is released again (`Gives`). So the roots it leaves are
those of the cells it hands back. -/

namespace ForeignBridge

/-- The cells in a result; a failure has none. -/
def handedBack {ε α : Type} (cells : α → List CellId) : Except ε α → List CellId
  | .ok a => cells a
  | .error _ => []

/-! ### What a conversion to the foreign store keeps -/

namespace ConversionPolicy

/-- A property of a store and of the cells that a conversion holds there for itself, which all that a conversion does
keeps: it shares one of the cells `o` that are held anyway, it makes a slot and a cell for it, or it releases a cell. -/
structure ConversionInvariant (o : Multiset CellId) (I : Store → Multiset CellId → Prop) : Prop where
  share : ∀ {t made c}, I t made → c ∈ o → I (t.retain c) (c ::ₘ made)
  place : ∀ {t made} {data : Datum CellId}, I t made → (∀ h ∈ data.handles, ∃ c, h = t.read c) →
    (∀ c ∈ data.references, c ∈ o) → I (place Store.construct data t).2 ((place Store.construct data t).1 ::ₘ made)
  release : ∀ {t made c}, I t (c ::ₘ made) → I (t.release c) made

/-- The property holds where an operation ends, together with the cells of its result. -/
def Leaves {ε α : Type} (I : Store → Multiset CellId → Prop) (made : Multiset CellId) (cells : α → List CellId)
    (result : Except ε α × Store) : Prop := I result.2 ((handedBack cells result.1 : Multiset CellId) + made)

section leaves

variable {ε α : Type} {I : Store → Multiset CellId → Prop} {o made : Multiset CellId} {t : Store}
  {cells : α → List CellId}

theorem Leaves.error {e : ε} (holds : I t made) : Leaves I made cells (.error e, t) := by
  unfold Leaves handedBack
  rwa [Multiset.coe_nil, zero_add]

theorem Leaves.one {c : CellId} (holds : I t (c ::ₘ made)) :
    Leaves I made (fun c => [c]) ((.ok c, t) : Except ε CellId × Store) := by
  show I t (([c] : List CellId) + made)
  rwa [Multiset.coe_singleton, Multiset.singleton_add]

theorem Leaves.of_error {e : ε} {result : Except ε α × Store} (leaves : Leaves I made cells result)
    (same : result = (.error e, t)) : I t made := by
  subst same
  unfold Leaves handedBack at leaves
  rwa [Multiset.coe_nil, zero_add] at leaves

theorem Leaves.of_ok {a : α} {result : Except ε α × Store} (leaves : Leaves I made cells result)
    (same : result = (.ok a, t)) : I t ((cells a : Multiset CellId) + made) := by
  subst same
  exact leaves

theorem Leaves.of_one {c : CellId} {result : Except ε CellId × Store} (leaves : Leaves I made (fun c => [c]) result)
    (same : result = (.ok c, t)) : I t (c ::ₘ made) := by
  have holds := leaves.of_ok same
  rwa [Multiset.coe_singleton, Multiset.singleton_add] at holds

theorem ConversionInvariant.releaseAll (invariant : ConversionInvariant o I) : ∀ (cs : List CellId) {t : Store},
    I t ((cs : Multiset CellId) + made) → I (t.releaseAll cs) made
  | [], _, holds => by rwa [Multiset.coe_nil, zero_add] at holds
  | c :: cs, _, holds => by
      rw [← Multiset.cons_coe, Multiset.cons_add] at holds
      exact invariant.releaseAll cs (invariant.release holds)

/-- The cells of the parts of a container are released once it is there. -/
theorem ConversionInvariant.placeContainer (invariant : ConversionInvariant o I) {data : Datum CellId}
    {parts : List CellId} (holds : I t (parts + made)) (read : ∀ h ∈ data.handles, ∃ c, h = t.read c)
    (plain : data.references = []) :
    I (placeContainer Store.construct data parts t).2 ((placeContainer Store.construct data parts t).1 ::ₘ made) := by
  have placed := invariant.place holds read fun c hc => by simp [plain] at hc
  rw [← Multiset.add_cons] at placed
  exact invariant.releaseAll parts placed

/-- A value that is no container becomes plain data or a box. -/
theorem ConversionInvariant.leaf (invariant : ConversionInvariant o I) {p : ConversionPolicy} {k : NativeKind}
    {v : Value CellId} {data : Datum CellId} (holds : I t made) (handles : data.handles = [])
    (plain : data.references = []) (held : ∀ c ∈ v.references, c ∈ o) :
    let placed := ConversionPolicy.place Store.construct (if p.allows k then data else .host v) t
    Leaves I made (fun c => [c]) ((.ok placed.1, placed.2) : Except BridgeError CellId × Store) := by
  apply Leaves.one
  apply invariant.place holds
  · intro h hh
    split at hh
    · simp [handles] at hh
    · cases hh
  · intro c hc
    split at hc
    · simp [plain] at hc
    · exact held c hc

end leaves

theorem mem_pairUp {parts : List Handle} {kv : Handle × Handle} (found : kv ∈ Datum.pairUp parts) :
    kv.1 ∈ parts ∧ kv.2 ∈ parts := by
  induction parts using Datum.pairUp.induct with
  | case1 k v rest ih =>
    rcases List.mem_cons.mp found with rfl | found
    · simp
    · obtain ⟨hk, hv⟩ := ih found
      simp [hk, hv]
  | case2 rest short =>
    unfold Datum.pairUp at found
    simp at found

theorem read_of_pairUp {t : Store} {parts : List CellId} :
    ∀ h ∈ (Datum.dict (Datum.pairUp (parts.map t.read)) : Datum CellId).handles, ∃ c, h = t.read c := by
  intro h hh
  obtain ⟨kv, hkv, hh⟩ := List.mem_flatMap.mp hh
  have part : h ∈ parts.map t.read := by
    rcases List.mem_pair.mp hh with rfl | rfl
    · exact (mem_pairUp hkv).1
    · exact (mem_pairUp hkv).2
  obtain ⟨c, _, rfl⟩ := List.mem_map.mp part
  exact ⟨c, rfl⟩

theorem coe_cons_add (c : CellId) (cs : List CellId) (o : Multiset CellId) :
    ((c :: cs : List CellId) : Multiset CellId) + o = cs + c ::ₘ o := by
  rw [← Multiset.cons_coe, Multiset.cons_add, Multiset.add_cons]

section keeps

variable {o : Multiset CellId} {I : Store → Multiset CellId → Prop} (invariant : ConversionInvariant o I)

include invariant

mutual

/-- **A conversion keeps whatever its steps keep**, also where it fails on the way. -/
theorem leaves_toForeignAt (p : ConversionPolicy) (depth : ℕ) : ∀ (v : Value CellId) {t : Store}
    {made : Multiset CellId}, (∀ c ∈ v.references, c ∈ o) → I t made →
    Leaves I made (fun c => [c]) (p.toForeignAt Store.construct depth v t)
  | .foreign c, t, made, held, holds | .function c _, t, made, held, holds => by
      unfold toForeignAt
      split
      · exact Leaves.error holds
      · exact Leaves.one (invariant.share holds (held c List.mem_cons_self))
  | .nil, t, made, held, holds | .bool _, t, made, held, holds | .int _, t, made, held, holds
  | .float _, t, made, held, holds | .str _, t, made, held, holds | .symbol _, t, made, held, holds => by
      unfold toForeignAt
      split
      · exact Leaves.error holds
      · exact invariant.leaf holds rfl rfl held
  | .list items, t, made, held, holds => by
      unfold toForeignAt
      split
      · exact Leaves.error holds
      · dsimp only
        split
        · have items := leaves_toForeignItems p (depth + 1) items held holds
          split
          · next e t' failed => exact Leaves.error (items.of_error failed)
          · next parts t' built =>
            refine Leaves.one (invariant.placeContainer (items.of_ok built) (fun h hh => ?_) rfl)
            obtain ⟨c, _, rfl⟩ := List.mem_map.mp hh
            exact ⟨c, rfl⟩
        · exact Leaves.one (invariant.place holds (fun h hh => by cases hh) held)
  | .record fields, t, made, held, holds => by
      unfold toForeignAt
      split
      · exact Leaves.error holds
      · dsimp only
        split
        · have fields := leaves_toForeignFields p (depth + 1) fields held holds
          split
          · next e t' failed => exact Leaves.error (fields.of_error failed)
          · next parts t' built =>
            exact Leaves.one (invariant.placeContainer (fields.of_ok built) read_of_pairUp rfl)
        · exact Leaves.one (invariant.place holds (fun h hh => by cases hh) held)

theorem leaves_toForeignItems (p : ConversionPolicy) (depth : ℕ) : ∀ (items : List (Value CellId)) {t : Store}
    {made : Multiset CellId}, (∀ c ∈ Value.referencesItems items, c ∈ o) → I t made →
    Leaves I made id (p.toForeignItems Store.construct depth items t)
  | [], t, made, _, holds => by
      show I t (([] : List CellId) + made)
      rwa [Multiset.coe_nil, zero_add]
  | v :: rest, t, made, held, holds => by
      have head := leaves_toForeignAt p depth v (fun c hc => held c (List.mem_append_left _ hc)) holds
      unfold toForeignItems
      split
      · next e t' failed => exact Leaves.error (head.of_error failed)
      · next c t' built =>
        have tail := leaves_toForeignItems p depth rest (fun c hc => held c (List.mem_append_right _ hc))
          (head.of_one built)
        split
        · next e w failed => exact Leaves.error (invariant.release (tail.of_error failed))
        · next cs w built' =>
          show I w (((c :: cs : List CellId) : Multiset CellId) + made)
          rw [coe_cons_add]
          exact tail.of_ok built'

theorem leaves_toForeignFields (p : ConversionPolicy) (depth : ℕ) : ∀ (fields : List (String × Value CellId)) {t : Store}
    {made : Multiset CellId}, (∀ c ∈ Value.referencesFields fields, c ∈ o) → I t made →
    Leaves I made id (p.toForeignFields Store.construct depth fields t)
  | [], t, made, _, holds => by
      show I t (([] : List CellId) + made)
      rwa [Multiset.coe_nil, zero_add]
  | (key, v) :: rest, t, made, held, holds => by
      have named : I (place Store.construct (.symbol key) t).2 ((place Store.construct (.symbol key) t).1 ::ₘ made) :=
        invariant.place holds (fun h hh => by cases hh) fun c hc => by cases hc
      unfold toForeignFields
      dsimp only
      generalize place Store.construct (.symbol key) t = placed at named ⊢
      obtain ⟨k, t'⟩ := placed
      have head := leaves_toForeignAt p depth v (fun c hc => held c (List.mem_append_left _ hc)) named
      split
      · next e w failed => exact Leaves.error (invariant.release (head.of_error failed))
      · next c w built =>
        have tail := leaves_toForeignFields p depth rest (fun c hc => held c (List.mem_append_right _ hc))
          (head.of_one built)
        split
        · next e w' failed =>
          exact Leaves.error (invariant.release (invariant.release (tail.of_error failed)))
        · next cs w' built' =>
          show I w' (((k :: c :: cs : List CellId) : Multiset CellId) + made)
          rw [coe_cons_add, coe_cons_add]
          exact tail.of_ok built'

end

end keeps

end ConversionPolicy

namespace Ledger

/-- An operation that consists of moves and hands back the cells of its result. -/
def Gives {ε α : Type} (s : Store) (o : Multiset CellId) (r u : Multiset Handle) (cells : α → List CellId)
    (result : Except ε α × Store) : Prop :=
  Moves ⟨s, o, r, u⟩ ⟨result.2, (handedBack cells result.1 : Multiset CellId) + o, r, u⟩

section gives

variable {ε α : Type} {s t : Store} {o : Multiset CellId} {r u : Multiset Handle} {cells : α → List CellId}

theorem Gives.error {e : ε} (moves : Moves ⟨s, o, r, u⟩ ⟨t, o, r, u⟩) : Gives s o r u cells (.error e, t) := by
  unfold Gives handedBack
  rwa [Multiset.coe_nil, zero_add]

theorem Gives.nothing {a : α} (moves : Moves ⟨s, o, r, u⟩ ⟨t, o, r, u⟩) (none : cells a = []) :
    Gives s o r u cells ((.ok a, t) : Except ε α × Store) := by
  show Moves _ ⟨t, (cells a : Multiset CellId) + o, r, u⟩
  rwa [none, Multiset.coe_nil, zero_add]

theorem Gives.one {a : α} {c : CellId} (moves : Moves ⟨s, o, r, u⟩ ⟨t, c ::ₘ o, r, u⟩) (own : cells a = [c]) :
    Gives s o r u cells ((.ok a, t) : Except ε α × Store) := by
  show Moves _ ⟨t, (cells a : Multiset CellId) + o, r, u⟩
  rwa [own, Multiset.coe_singleton, Multiset.singleton_add]

theorem Gives.after {s' : Store} {result : Except ε α × Store} (first : Moves ⟨s, o, r, u⟩ ⟨s', o, r, u⟩)
    (gives : Gives s' o r u cells result) : Gives s o r u cells result := Moves.trans first gives

/-- The moves of a failure. -/
theorem Gives.of_error {e : ε} {result : Except ε α × Store} (gives : Gives s o r u cells result)
    (same : result = (.error e, t)) : Moves ⟨s, o, r, u⟩ ⟨t, o, r, u⟩ := by
  subst same
  unfold Gives handedBack at gives
  rwa [Multiset.coe_nil, zero_add] at gives

/-- The moves of a success. -/
theorem Gives.of_ok {a : α} {result : Except ε α × Store} (gives : Gives s o r u cells result)
    (same : result = (.ok a, t)) : Moves ⟨s, o, r, u⟩ ⟨t, (cells a : Multiset CellId) + o, r, u⟩ := by
  subst same
  exact gives

end gives

section conversions

variable {s : Store} {o : Multiset CellId} {r u : Multiset Handle}

theorem Sound.issued_read (sound : Sound ⟨s, o, r, u⟩) (c : CellId) : s.Issued (s.read c) := by
  cases bound : s.binding? c with
  | none =>
    rw [Store.read_of_binding?_none bound]
    exact Store.issued_null s
  | some h =>
    rw [Store.read_of_binding? bound]
    exact sound.closed.cells c h bound

theorem Sound.issued_reads (sound : Sound ⟨s, o, r, u⟩) (cells : List CellId) : ∀ h ∈ cells.map s.read, s.Issued h := by
  intro h hh
  obtain ⟨c, _, rfl⟩ := List.mem_map.mp hh
  exact sound.issued_read c

theorem moves_hold {h : Handle} (issued : s.Issued h) :
    Moves ⟨s, o, r, u⟩ ⟨(s.hold h).2, (s.hold h).1 ::ₘ o, r, u⟩ := (Move.hold s o r u h issued).moves

/-! ### To the foreign store -/

open ConversionPolicy

theorem moves_place {data : Datum CellId} (issued : ∀ h ∈ data.handles, s.Issued h)
    (held : ∀ c ∈ data.references, c ∈ o) :
    Moves ⟨s, o, r, u⟩ ⟨(place Store.construct data s).2, (place Store.construct data s).1 ::ₘ o, r, u⟩ :=
  (moves_construct issued held).trans (moves_hold (issued_construct s data))

/-- What a conversion does consists of moves. -/
theorem conversionInvariant_moves (sound : Sound ⟨s, o, r, u⟩) :
    ConversionInvariant o fun t made => Moves ⟨s, o, r, u⟩ ⟨t, made + o, r, u⟩ where
  share {t made c} moves held := by
    have kept : c ∈ made + o + t.boxed := Multiset.mem_add.mpr (.inl (Multiset.mem_add.mpr (.inr held)))
    rw [Multiset.cons_add]
    exact moves.trans (Move.retain t (made + o) r u c kept).moves
  place {t made data} moves read held := by
    rw [Multiset.cons_add]
    refine moves.trans (moves_place (fun h hh => ?_) fun c hc => Multiset.mem_add.mpr (.inr (held c hc)))
    obtain ⟨c, rfl⟩ := read h hh
    exact (moves.sound sound).issued_read c
  release {t made c} moves := by
    rw [Multiset.cons_add] at moves
    exact moves.trans (Move.release t (made + o) r u c).moves

theorem moves_none (s : Store) (o : Multiset CellId) : Moves ⟨s, o, r, u⟩ ⟨s, 0 + o, r, u⟩ := by
  rw [zero_add]
  exact .refl _

/-- **A conversion to the foreign store hands back one cell, or nothing.** -/
theorem gives_toForeign (p : ConversionPolicy) (v : Value CellId) (sound : Sound ⟨s, o, r, u⟩)
    (held : ∀ c ∈ v.references, c ∈ o) : Gives s o r u (fun c => [c]) (p.toForeign v s) := by
  have leaves := leaves_toForeignAt (conversionInvariant_moves sound) p 0 v held (moves_none s o)
  rwa [Leaves, add_zero] at leaves

theorem gives_toForeignItems (p : ConversionPolicy) (items : List (Value CellId)) (sound : Sound ⟨s, o, r, u⟩)
    (held : ∀ c ∈ Value.referencesItems items, c ∈ o) :
    Gives s o r u id (p.toForeignItems Store.construct 0 items s) := by
  have leaves := leaves_toForeignItems (conversionInvariant_moves sound) p 0 items held (moves_none s o)
  rwa [Leaves, add_zero] at leaves

theorem gives_enter (b : Bridge) (f : Callable) (args : List (Value CellId)) (sound : Sound ⟨s, o, r, u⟩)
    (held : ∀ c ∈ Value.referencesItems args, c ∈ o) : Gives s o r u id (b.enter f args s) := by
  unfold Bridge.enter
  split
  · exact Gives.error (.refl _)
  · exact gives_toForeignItems _ args sound held

/-! ### From the foreign store -/

theorem Sound.issued_inspect (sound : Sound ⟨s, o, r, u⟩) (h : Handle) :
    ∀ k ∈ (s.inspect h).1.handles, s.Issued k := by
  rcases s.inspect_fst h with unknown | shown
  · intro k hk
    rw [unknown] at hk
    cases hk
  · exact sound.closed.objects h _ shown

theorem gives_object {h : Handle} (issued : s.Issued h) :
    Gives s o r u Value.references
      ((.ok (object h s).1, (object h s).2) : Except BridgeError (Value CellId) × Store) :=
  Gives.one (moves_hold issued) rfl

theorem perm_referencesFields_insert {key : String} {v : Value CellId} {fields : Keyed (Value CellId)}
    (fresh : Keyed.has key fields = false) :
    (Value.referencesFields (Keyed.insert key v fields)).Perm (v.references ++ Value.referencesFields fields) := by
  induction fields with
  | nil => exact .refl _
  | cons e rest ih =>
    obtain ⟨k, w⟩ := e
    unfold Keyed.has Keyed.get? at fresh
    unfold Keyed.insert
    split at fresh
    · simp at fresh
    · next apart =>
      rw [if_neg apart]
      split
      · exact .refl _
      · have later := (ih fresh).append_left w.references
        exact later.trans (List.perm_append_comm_assoc _ _ _)

/-- A decoder of handles that were handed out. -/
def Decodes (r u : Multiset Handle) (decode : Decoder) : Prop :=
  ∀ {h : Handle} {s : Store} {o : Multiset CellId}, Sound ⟨s, o, r, u⟩ → s.Issued h →
    Gives s o r u Value.references (decode h s)

section decoder

variable {decode : Decoder} (decodes : Decodes r u decode)

include decodes

theorem gives_decodeItems : ∀ (items : List Handle) {s : Store} {o : Multiset CellId}, Sound ⟨s, o, r, u⟩ →
    (∀ h ∈ items, s.Issued h) → Gives s o r u Value.referencesItems (decodeItems decode items s)
  | [], s, o, _, _ => Gives.nothing (.refl _) rfl
  | h :: rest, s, o, sound, issued => by
      have head := decodes sound (issued h List.mem_cons_self)
      unfold decodeItems
      split
      · next e t failed => exact Gives.error (head.of_error failed)
      · next v t decoded =>
        have first := head.of_ok decoded
        have tail := gives_decodeItems rest (first.sound sound) fun k hk =>
          first.issued (issued k (List.mem_cons_of_mem _ hk))
        split
        · next e t' failed => exact Gives.error ((first.trans (tail.of_error failed)).trans (moves_releaseAll _))
        · next vs t' decoded =>
          have both := first.trans (tail.of_ok decoded)
          rw [add_left_comm, ← add_assoc, Multiset.coe_add] at both
          exact both

theorem moves_decodePairs : ∀ (pairs : List (Handle × Handle)) (fields : Keyed (Value CellId)) {s : Store}
    {o : Multiset CellId}, Sound ⟨s, Value.referencesFields fields + o, r, u⟩ →
    (∀ kv ∈ pairs, s.Issued kv.2) →
    Moves ⟨s, Value.referencesFields fields + o, r, u⟩ ⟨(decodePairs decode fields pairs s).2,
      handedBack (fun fields => (fields.map Value.referencesFields).getD []) (decodePairs decode fields pairs s).1 + o,
      r, u⟩
  | [], fields, s, o, _, _ => .refl _
  | (k, h) :: rest, fields, s, o, sound, issued => by
      have noted : Moves ⟨s, Value.referencesFields fields + o, r, u⟩
          ⟨(s.inspect k).2, Value.referencesFields fields + o, r, u⟩ := by
        rw [Store.inspect_snd]
        exact moves_note _
      have issued' : ∀ kv ∈ (k, h) :: rest, (s.inspect k).2.Issued kv.2 := fun kv hkv => noted.issued (issued kv hkv)
      have sound' := noted.sound sound
      unfold decodePairs
      dsimp only
      generalize s.inspect k = shown at noted issued' sound' ⊢
      obtain ⟨data, s'⟩ := shown
      dsimp only at noted issued' sound' ⊢
      -- Every way out but success releases the fields that were decoded so far.
      have discarded : ∀ t : Store, Moves ⟨t, Value.referencesFields fields + o, r, u⟩
          ⟨t.releaseAll (Value.referencesFields fields), (([] : List CellId) : Multiset CellId) + o, r, u⟩ := by
        intro t
        rw [Multiset.coe_nil, zero_add]
        exact moves_releaseAll _
      split
      · exact noted.trans (discarded s')
      · next key named =>
        split
        · exact noted.trans (discarded s')
        · next fresh =>
          have value := decodes sound' (issued' _ List.mem_cons_self)
          split
          · next e t failed => exact (noted.trans (value.of_error failed)).trans (discarded t)
          · next v t decoded =>
            have first := noted.trans (value.of_ok decoded)
            rw [← add_assoc, Multiset.coe_add,
              ← Multiset.coe_eq_coe.mpr (perm_referencesFields_insert (by simpa using fresh))] at first
            have later := moves_decodePairs rest _ (first.sound sound) fun kv hkv =>
              (value.of_ok decoded).issued (issued' kv (List.mem_cons_of_mem _ hkv))
            exact first.trans later

theorem gives_decodePairs (pairs : List (Handle × Handle)) {s : Store} {o : Multiset CellId}
    (sound : Sound ⟨s, o, r, u⟩) (issued : ∀ kv ∈ pairs, s.Issued kv.2) :
    Gives s o r u (fun fields => (fields.map Value.referencesFields).getD []) (decodePairs decode [] pairs s) := by
  have none : ((Value.referencesFields ([] : Keyed (Value CellId)) : List CellId) : Multiset CellId) + o = o :=
    zero_add o
  have moves := moves_decodePairs decodes pairs [] (s := s) (o := o) (by rwa [none]) issued
  rwa [none] at moves

end decoder

/-- **A conversion from the foreign store hands back the cells of the value, or nothing.** -/
theorem decodes_fromForeignWithin (p : ConversionPolicy) (budget : ℕ) : Decodes r u (p.fromForeignWithin budget) := by
  induction budget with
  | zero =>
    intro h s o _ _
    exact Gives.error (.refl _)
  | succ budget ih =>
    intro h s o sound issued
    have noted : Moves ⟨s, o, r, u⟩ ⟨(s.inspect h).2, o, r, u⟩ := by
      rw [Store.inspect_snd]
      exact moves_note _
    have known : ∀ k ∈ (s.inspect h).1.handles, (s.inspect h).2.Issued k := fun k hk =>
      noted.issued (sound.issued_inspect h k hk)
    have boxed : ∀ c ∈ (s.inspect h).1.references, Holds ⟨(s.inspect h).2, o, r, u⟩ c := by
      intro c hc
      rw [Store.inspect_snd]
      exact Multiset.mem_add.mpr (.inr (Store.mem_boxed_of_inspect (s := s) hc))
    have issued' := noted.issued issued
    have sound' := noted.sound sound
    unfold fromForeignWithin
    dsimp only
    generalize s.inspect h = shown at noted known boxed issued' sound' ⊢
    obtain ⟨data, s'⟩ := shown
    dsimp only at noted known boxed issued' sound' ⊢
    apply Gives.after noted
    have fallback := gives_object (o := o) (r := r) (u := u) issued'
    cases data with
    | host v =>
      show Moves _ ⟨s'.retainAll v.references, (v.references : Multiset CellId) + o, r, u⟩
      exact moves_retainAll _ boxed
    | nothing | bool | int | float | str | symbol =>
      dsimp only
      split
      · exact Gives.nothing (.refl _) rfl
      · exact fallback
    | array items =>
      dsimp only
      split
      · have decoded := gives_decodeItems (r := r) (u := u) ih items sound' known
        split
        · next e t failed => exact Gives.error (decoded.of_error failed)
        · next vs t built => exact decoded.of_ok built
      · exact fallback
    | dict pairs =>
      dsimp only
      split
      · have values : ∀ kv ∈ pairs, s'.Issued kv.2 := fun kv hkv =>
          known _ (List.mem_flatMap.mpr ⟨kv, hkv, by simp⟩)
        have decoded := gives_decodePairs (r := r) (u := u) ih pairs sound' values
        split
        · next e t failed => exact Gives.error (decoded.of_error failed)
        · next fields t built => exact decoded.of_ok built
        · next t built =>
          have refused : Moves _ ⟨t, (([] : List CellId) : Multiset CellId) + o, r, u⟩ := decoded.of_ok built
          rw [Multiset.coe_nil, zero_add] at refused
          exact Gives.after refused (gives_object (refused.issued issued'))
      · exact fallback
    | unknown => exact fallback

theorem decodes_fromForeign (p : ConversionPolicy) : Decodes r u p.fromForeign := decodes_fromForeignWithin p _

/-- The result of a crossing becomes a value whose cells the caller holds. -/
theorem gives_receive (b : Bridge) (autoConvert : Bool) {h : Handle} (sound : Sound ⟨s, o, r, u⟩)
    (issued : s.Issued h) : Gives s o r u Value.references (b.receive autoConvert h s) := by
  unfold Bridge.receive
  split
  · exact decodes_fromForeign b.policy sound issued
  · exact gives_object issued

end conversions

end Ledger

end ForeignBridge
