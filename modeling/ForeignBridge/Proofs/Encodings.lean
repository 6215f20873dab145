import ForeignBridge.Proofs.Conversions
import ForeignBridge.Proofs.Lifetimes
import ForeignBridge.Proofs.Tables

/-! # How the foreign store holds host values

`Encodes p s v h` says that the slot of `h` and the slots below it hold the value `v` the way the policy `p` has it. A
conversion to the foreign store makes such slots exactly if the value is not nested too deep (`converts_toForeignAt`), a
conversion back reads the same value off them (`fromForeignWithin_of_encodes`), and both hold over any store.

Nothing is said about foreign objects and functions in the parts that are converted, as these stand for themselves. -/

namespace ForeignBridge

namespace Value

variable {ρ : Type}

mutual

/-- Every record in the value ascends by key. -/
def Ordered : Value ρ → Prop
  | .list items => OrderedItems items
  | .record fields => Keyed.Ascends fields ∧ OrderedFields fields
  | _ => True

/-- Every record in a list ascends by key. -/
def OrderedItems : List (Value ρ) → Prop
  | [] => True
  | v :: rest => Ordered v ∧ OrderedItems rest

/-- Every record below a record ascends by key. -/
def OrderedFields : List (String × Value ρ) → Prop
  | [] => True
  | (_, v) :: rest => Ordered v ∧ OrderedFields rest

end

end Value

namespace ConversionPolicy

variable {ρ : Type}

mutual

/-- No foreign object or function stands where the policy looks. -/
def isPlain (p : ConversionPolicy) : Value ρ → Bool
  | .list items => !p.allows .list || isPlainItems p items
  | .record fields => !p.allows .record || isPlainFields p fields
  | .foreign _ => false
  | .function _ _ => false
  | _ => true

/-- No foreign object or function stands where the policy looks in a list. -/
def isPlainItems (p : ConversionPolicy) : List (Value ρ) → Bool
  | [] => true
  | v :: rest => isPlain p v && isPlainItems p rest

/-- No foreign object or function stands where the policy looks in a record. -/
def isPlainFields (p : ConversionPolicy) : List (String × Value ρ) → Bool
  | [] => true
  | (_, v) :: rest => isPlain p v && isPlainFields p rest

end

mutual

/-- How deep the lists and records that the policy converts are nested. An empty one does not count. -/
def nesting (p : ConversionPolicy) : Value ρ → ℕ
  | .list items => if p.allows .list then nestingItems p items else 0
  | .record fields => if p.allows .record then nestingFields p fields else 0
  | _ => 0

/-- The nesting of a list that is converted: one more than that of its deepest item. -/
def nestingItems (p : ConversionPolicy) : List (Value ρ) → ℕ
  | [] => 0
  | v :: rest => max (nesting p v + 1) (nestingItems p rest)

/-- The nesting of a record that is converted: one more than that of its deepest field. -/
def nestingFields (p : ConversionPolicy) : List (String × Value ρ) → ℕ
  | [] => 0
  | (_, v) :: rest => max (nesting p v + 1) (nestingFields p rest)

end

/-- The data for a value: its counterpart, or a box if its kind is not enabled. -/
def enclose (p : ConversionPolicy) (k : NativeKind) (v : Value CellId) (data : Datum CellId) : Datum CellId :=
  if p.allows k then data else .host v

theorem enclose_of_allows {p : ConversionPolicy} {k : NativeKind} (enabled : p.allows k = true) (v : Value CellId)
    (data : Datum CellId) : p.enclose k v data = data := if_pos enabled

theorem enclose_of_not_allows {p : ConversionPolicy} {k : NativeKind} (disabled : ¬ p.allows k = true)
    (v : Value CellId) (data : Datum CellId) : p.enclose k v data = .host v := if_neg disabled

mutual

/-- The slot of a handle holds a value as the policy has it. -/
def Encodes (p : ConversionPolicy) (s : Store) : Value CellId → Handle → Prop
  | .nil, h => s.object? h = some (.value (p.enclose .nil .nil .nothing))
  | .bool b, h => s.object? h = some (.value (p.enclose .bool (.bool b) (.bool b)))
  | .int i, h => s.object? h = some (.value (p.enclose .int (.int i) (.int i)))
  | .float x, h => s.object? h = some (.value (p.enclose .float (.float x) (.float x)))
  | .str text, h => s.object? h = some (.value (p.enclose .string (.str text) (.str text)))
  | .symbol name, h => s.object? h = some (.value (p.enclose .symbol (.symbol name) (.symbol name)))
  | .list items, h => ∃ hs, s.object? h = some (.value (p.enclose .list (.list items) (.array hs))) ∧
      (p.allows .list = true → EncodesItems p s items hs)
  | .record fields, h => ∃ pairs, s.object? h = some (.value (p.enclose .record (.record fields) (.dict pairs))) ∧
      (p.allows .record = true → EncodesFields p s fields pairs)
  | .foreign _, _ => False
  | .function _ _, _ => False

/-- The slots of a list of handles hold a list of values. -/
def EncodesItems (p : ConversionPolicy) (s : Store) : List (Value CellId) → List Handle → Prop
  | [], hs => hs = []
  | v :: rest, hs => ∃ h later, hs = h :: later ∧ Encodes p s v h ∧ EncodesItems p s rest later

/-- The slots of a list of pairs hold fields, whose keys are symbols. -/
def EncodesFields (p : ConversionPolicy) (s : Store) : List (String × Value CellId) → List (Handle × Handle) → Prop
  | [], pairs => pairs = []
  | (key, v) :: rest, pairs => ∃ k h later, pairs = (k, h) :: later ∧ s.object? k = some (.value (.symbol key)) ∧
      Encodes p s v h ∧ EncodesFields p s rest later

end

/-! ### Stores that hold the same data -/

section same

variable {p : ConversionPolicy} {s t : Store}

/-- The data that can be reached from a handle in one store is in another. -/
def Agrees (s t : Store) (h : Handle) : Prop :=
  ∀ k data, s.Reaches h k → s.object? k = some (.value data) → t.object? k = some (.value data)

theorem Agrees.below {h k : Handle} (agrees : Agrees s t h) {data : Datum CellId}
    (found : s.object? h = some (.value data)) (below : k ∈ data.handles) : Agrees s t k := by
  intro j other reaches there
  have step : k ∈ s.successors h := by
    rw [Store.successors, found]
    exact below
  exact agrees j other (.head step reaches) there

theorem Agrees.here {h : Handle} (agrees : Agrees s t h) {data : Datum CellId}
    (found : s.object? h = some (.value data)) : t.object? h = some (.value data) := agrees h data .refl found

mutual

/-- **A value is held as long as the data below its handle stays.** -/
theorem Encodes.mono : ∀ (v : Value CellId) {h : Handle}, Agrees s t h → p.Encodes s v h → p.Encodes t v h
  | .nil, h, agrees, encodes | .bool _, h, agrees, encodes | .int _, h, agrees, encodes | .float _, h, agrees, encodes
  | .str _, h, agrees, encodes | .symbol _, h, agrees, encodes => by
      unfold Encodes at encodes ⊢
      exact agrees.here encodes
  | .list items, h, agrees, encodes => by
      unfold Encodes at encodes ⊢
      obtain ⟨hs, found, inside⟩ := encodes
      refine ⟨hs, agrees.here found, fun enabled => EncodesItems.mono items ?_ (inside enabled)⟩
      intro k hk
      rw [enclose_of_allows enabled] at found
      exact agrees.below found hk
  | .record fields, h, agrees, encodes => by
      unfold Encodes at encodes ⊢
      obtain ⟨pairs, found, inside⟩ := encodes
      refine ⟨pairs, agrees.here found, fun enabled => EncodesFields.mono fields ?_ (inside enabled)⟩
      intro kv hkv
      rw [enclose_of_allows enabled] at found
      have below : ∀ k ∈ [kv.1, kv.2], Agrees s t k := fun k hk =>
        agrees.below found (List.mem_flatMap.mpr ⟨kv, hkv, hk⟩)
      exact ⟨below kv.1 (by simp), below kv.2 (by simp)⟩
  | .foreign _, _, _, encodes | .function _ _, _, _, encodes => by
      unfold Encodes at encodes
      exact encodes.elim

theorem EncodesItems.mono : ∀ (items : List (Value CellId)) {hs : List Handle}, (∀ h ∈ hs, Agrees s t h) →
    p.EncodesItems s items hs → p.EncodesItems t items hs
  | [], hs, _, encodes => by
      unfold EncodesItems at encodes ⊢
      exact encodes
  | v :: rest, hs, agrees, encodes => by
      unfold EncodesItems at encodes ⊢
      obtain ⟨h, later, rfl, here, there⟩ := encodes
      refine ⟨h, later, rfl, Encodes.mono v (agrees h List.mem_cons_self) here, ?_⟩
      exact EncodesItems.mono rest (fun k hk => agrees k (List.mem_cons_of_mem _ hk)) there

theorem EncodesFields.mono : ∀ (fields : List (String × Value CellId)) {pairs : List (Handle × Handle)},
    (∀ kv ∈ pairs, Agrees s t kv.1 ∧ Agrees s t kv.2) → p.EncodesFields s fields pairs → p.EncodesFields t fields pairs
  | [], pairs, _, encodes => by
      unfold EncodesFields at encodes ⊢
      exact encodes
  | (key, v) :: rest, pairs, agrees, encodes => by
      unfold EncodesFields at encodes ⊢
      obtain ⟨k, h, later, rfl, named, here, there⟩ := encodes
      obtain ⟨first, second⟩ := agrees _ List.mem_cons_self
      refine ⟨k, h, later, rfl, first.here named, Encodes.mono v second here, ?_⟩
      exact EncodesFields.mono rest (fun kv hkv => agrees kv (List.mem_cons_of_mem _ hkv)) there

end

theorem agrees_of_slots (same : t.slots = s.slots) (h : Handle) : Agrees s t h := by
  intro k data _ found
  rwa [Store.object?_congr same]

theorem Encodes.of_slots {v : Value CellId} {h : Handle} (same : t.slots = s.slots) (encodes : p.Encodes s v h) :
    p.Encodes t v h := Encodes.mono v (agrees_of_slots same h) encodes

theorem EncodesItems.of_slots {items : List (Value CellId)} {hs : List Handle} (same : t.slots = s.slots)
    (encodes : p.EncodesItems s items hs) : p.EncodesItems t items hs :=
  EncodesItems.mono items (fun h _ => agrees_of_slots same h) encodes

theorem EncodesFields.of_slots {fields : List (String × Value CellId)} {pairs : List (Handle × Handle)}
    (same : t.slots = s.slots) (encodes : p.EncodesFields s fields pairs) : p.EncodesFields t fields pairs :=
  EncodesFields.mono fields (fun kv _ => ⟨agrees_of_slots same kv.1, agrees_of_slots same kv.2⟩) encodes

end same

/-! ### Reading a value back -/

section reading

variable {p : ConversionPolicy} {s : Store}

theorem inspect_of_value {h : Handle} {data : Datum CellId} (found : s.object? h = some (.value data)) :
    s.inspect h = (data, s.note .inspect) := by
  have noted : (s.note .inspect).object? h = some (.value data) := found
  unfold Store.inspect
  simp only [noted]

/-- A box is opened, whatever the policy. -/
theorem fromForeignWithin_of_host {v : Value CellId} {h : Handle} {budget : ℕ}
    (found : s.object? h = some (.value (.host v))) :
    ∃ t, p.fromForeignWithin (budget + 1) h s = (.ok v, t) ∧ t.slots = s.slots := by
  refine ⟨_, ?_, Ledger.slots_retainAll v.references (s.note .inspect)⟩
  unfold fromForeignWithin
  rw [inspect_of_value found]

mutual

/-- **A value that is held is read back.** -/
theorem fromForeignWithin_of_encodes : ∀ (v : Value CellId) {budget : ℕ} {s : Store} {h : Handle}, v.Ordered →
    p.nesting v < budget → p.Encodes s v h → ∃ t, p.fromForeignWithin budget h s = (.ok v, t) ∧ t.slots = s.slots
  | _, 0, _, _, _, shallow, _ => absurd shallow (Nat.not_lt_zero _)
  | .nil, budget + 1, s, h, _, _, encodes | .bool _, budget + 1, s, h, _, _, encodes
  | .int _, budget + 1, s, h, _, _, encodes | .float _, budget + 1, s, h, _, _, encodes
  | .str _, budget + 1, s, h, _, _, encodes | .symbol _, budget + 1, s, h, _, _, encodes => by
      unfold Encodes enclose at encodes
      split at encodes
      · next enabled =>
        refine ⟨s.note .inspect, ?_, rfl⟩
        unfold fromForeignWithin
        rw [inspect_of_value encodes]
        exact if_pos enabled
      · exact fromForeignWithin_of_host encodes
  | .list items, budget + 1, s, h, ordered, shallow, encodes => by
      unfold Encodes enclose at encodes
      unfold Value.Ordered at ordered
      unfold nesting at shallow
      obtain ⟨hs, found, inside⟩ := encodes
      split at found
      · next enabled =>
        rw [if_pos enabled] at shallow
        have noted : (s.note .inspect).slots = s.slots := rfl
        have there := (inside enabled).of_slots noted
        obtain ⟨t, decoded, same⟩ := decodeItems_of_encodes items ordered (Nat.le_of_lt_succ shallow) there
        refine ⟨t, ?_, same⟩
        unfold fromForeignWithin
        rw [inspect_of_value found]
        simp only [enabled, if_true, decoded]
      · exact fromForeignWithin_of_host found
  | .record fields, budget + 1, s, h, ordered, shallow, encodes => by
      unfold Encodes enclose at encodes
      unfold Value.Ordered at ordered
      unfold nesting at shallow
      obtain ⟨pairs, found, inside⟩ := encodes
      obtain ⟨ascends, ordered⟩ := ordered
      split at found
      · next enabled =>
        rw [if_pos enabled] at shallow
        have noted : (s.note .inspect).slots = s.slots := rfl
        have there := (inside enabled).of_slots noted
        obtain ⟨t, decoded, same⟩ := decodePairs_of_encodes fields [] ascends ordered (Nat.le_of_lt_succ shallow) there
        refine ⟨t, ?_, same⟩
        unfold fromForeignWithin
        rw [inspect_of_value found]
        simp only [enabled, if_true, decoded, List.nil_append]
      · exact fromForeignWithin_of_host found
  | .foreign _, _ + 1, _, _, _, _, encodes | .function _ _, _ + 1, _, _, _, _, encodes => by
      unfold Encodes at encodes
      exact encodes.elim

theorem decodeItems_of_encodes : ∀ (items : List (Value CellId)) {budget : ℕ} {s : Store} {hs : List Handle},
    Value.OrderedItems items → p.nestingItems items ≤ budget → p.EncodesItems s items hs →
    ∃ t, decodeItems (p.fromForeignWithin budget) hs s = (.ok items, t) ∧ t.slots = s.slots
  | [], budget, s, hs, _, _, encodes => by
      unfold EncodesItems at encodes
      subst encodes
      exact ⟨s, rfl, rfl⟩
  | v :: rest, budget, s, hs, ordered, shallow, encodes => by
      unfold EncodesItems at encodes
      unfold nestingItems at shallow
      obtain ⟨h, later, rfl, here, there⟩ := encodes
      obtain ⟨first, others⟩ := ordered
      have least : p.nesting v < budget := by omega
      have within : p.nestingItems rest ≤ budget := by omega
      obtain ⟨t, decoded, same⟩ := fromForeignWithin_of_encodes v first least here
      obtain ⟨t', decoded', same'⟩ := decodeItems_of_encodes rest others within (there.of_slots same)
      refine ⟨t', ?_, same'.trans same⟩
      unfold decodeItems
      simp only [decoded, decoded']

/-- The fields are read in ascending order, so each goes to the end of those that are there already. -/
theorem decodePairs_of_encodes : ∀ (fields : List (String × Value CellId)) (before : Keyed (Value CellId)) {budget : ℕ}
    {s : Store} {pairs : List (Handle × Handle)}, Keyed.Ascends (before ++ fields) → Value.OrderedFields fields →
    p.nestingFields fields ≤ budget → p.EncodesFields s fields pairs →
    ∃ t, decodePairs (p.fromForeignWithin budget) before pairs s = (.ok (some (before ++ fields)), t) ∧
      t.slots = s.slots
  | [], before, budget, s, pairs, _, _, _, encodes => by
      unfold EncodesFields at encodes
      subst encodes
      exact ⟨s, by rw [decodePairs, List.append_nil], rfl⟩
  | (key, v) :: rest, before, budget, s, pairs, ascends, ordered, shallow, encodes => by
      unfold EncodesFields at encodes
      unfold nestingFields at shallow
      obtain ⟨k, h, later, rfl, named, here, there⟩ := encodes
      obtain ⟨first, others⟩ := ordered
      have below := Keyed.lt_of_ascends_append ascends
      have least : p.nesting v < budget := by omega
      have within : p.nestingFields rest ≤ budget := by omega
      have noted : (s.note .inspect).slots = s.slots := rfl
      obtain ⟨t, decoded, same⟩ := fromForeignWithin_of_encodes v first least (here.of_slots noted)
      have next := same.trans noted
      have moved : before ++ (key, v) :: rest = before ++ [(key, v)] ++ rest := List.append_cons before (key, v) rest
      obtain ⟨t', decoded', same'⟩ := decodePairs_of_encodes rest (before ++ [(key, v)]) (moved ▸ ascends) others within
        (there.of_slots next)
      refine ⟨t', ?_, same'.trans next⟩
      unfold decodePairs
      rw [inspect_of_value named]
      simp only [keyText?, Keyed.has_of_lt below, Bool.false_eq_true, if_false, decoded, Keyed.insert_of_lt below,
        decoded', moved]

end

end reading

end ConversionPolicy

/-! ### Stores that keep what is there -/

namespace Store

/-- What was there is there: the objects of all slots, and the bindings of all cells. -/
structure Keeps (s t : Store) : Prop where
  last : s.lastId ≤ t.lastId
  cells : s.cells.size ≤ t.cells.size
  object : ∀ h, s.Issued h → t.object? h = s.object? h
  binding : ∀ c, c.index < s.cells.size → t.binding? c = s.binding? c

variable {s t : Store}

theorem Keeps.refl (s : Store) : s.Keeps s := ⟨le_rfl, le_rfl, fun _ _ => rfl, fun _ _ => rfl⟩

theorem Keeps.trans {w : Store} (first : s.Keeps t) (second : t.Keeps w) : s.Keeps w where
  last := first.last.trans second.last
  cells := first.cells.trans second.cells
  object h issued := (second.object h (issued.mono first.last)).trans (first.object h issued)
  binding c there := (second.binding c (there.trans_le first.cells)).trans (first.binding c there)

theorem Keeps.read (keeps : s.Keeps t) {c : CellId} (there : c.index < s.cells.size) : t.read c = s.read c :=
  read_congr (keeps.binding c there)

theorem Keeps.agrees (keeps : s.Keeps t) (h : Handle) : ConversionPolicy.Agrees s t h := by
  intro k data _ found
  obtain ⟨slot, hs, _⟩ := object?_eq_some.mp found
  rwa [keeps.object k (issued_of_slot? hs)]

theorem keeps_retain (s : Store) (c : CellId) : s.Keeps (s.retain c) where
  last := le_rfl
  cells := by simp [retain_eq, changeCell]
  object _ _ := rfl
  binding d _ := binding?_retain s c d

theorem keeps_retainAll (cs : List CellId) : ∀ s : Store, s.Keeps (s.retainAll cs) := by
  induction cs with
  | nil => exact fun s => .refl s
  | cons c cs ih => exact fun s => (keeps_retain s c).trans (ih (s.retain c))

theorem keeps_pushSlot (s : Store) (object : Object) : s.Keeps (s.pushSlot object) where
  last := Nat.le_succ _
  cells := le_rfl
  object h issued := by
    rw [object?_pushSlot, if_neg]
    rintro rfl
    exact not_issued_nextHandle s issued
  binding _ _ := rfl

theorem keeps_construct (s : Store) (data : Datum CellId) : s.Keeps (s.construct data).2 := by
  rw [construct, allocate_eq s _ rfl]
  exact (keeps_retainAll _ s).trans (keeps_pushSlot _ _)

theorem keeps_hold (s : Store) (h : Handle) : s.Keeps (s.hold h).2 := by
  refine ⟨?_, ?_, fun k _ => object?_hold s h k, fun c there => ?_⟩
  · rw [hold_eq]
    exact (lastId_root s h).ge
  · simp [hold_eq, pushCell]
  · rw [binding?_hold, if_neg]
    rintro rfl
    exact lt_irrefl _ there

theorem binding?_releaseAll {d : CellId} (cs : List CellId) : ∀ {s : Store}, d ∉ cs →
    (s.releaseAll cs).binding? d = s.binding? d := by
  induction cs with
  | nil => exact fun _ => rfl
  | cons c cs ih =>
    intro s apart
    obtain ⟨here, there⟩ := not_or.mp (mt List.mem_cons.mpr apart)
    exact (ih there).trans (binding?_release here)

/-- New cells may go. -/
theorem Keeps.releaseAll (cs : List CellId) : ∀ {t : Store}, s.Keeps t → (∀ c ∈ cs, s.cells.size ≤ c.index) →
    s.Keeps (t.releaseAll cs) := by
  induction cs with
  | nil => exact fun keeps _ => keeps
  | cons c cs ih =>
    intro t keeps new
    refine ih (t := t.release c) ⟨?_, ?_, ?_, ?_⟩ fun d hd => new d (List.mem_cons_of_mem _ hd)
    · exact keeps.last.trans (lastId_release t c).ge
    · exact keeps.cells.trans (Ledger.size_cells_release t c).ge
    · exact fun h issued => (object?_release t c h).trans (keeps.object h issued)
    · intro d there
      have apart : d ≠ c := by
        rintro rfl
        exact absurd (new d List.mem_cons_self) (not_le.mpr there)
      rw [binding?_release apart]
      exact keeps.binding d there

end Store

/-! ### Putting a value into the store -/

namespace ConversionPolicy

/-- A new cell is bound to a new handle, whose slot holds the value. -/
structure Placed (p : ConversionPolicy) (s t : Store) (v : Value CellId) (c : CellId) : Prop where
  keeps : s.Keeps t
  new : s.cells.size ≤ c.index
  bound : t.binding? c = some (t.read c)
  fresh : ¬ s.Issued (t.read c)
  encodes : p.Encodes t v (t.read c)

/-- What becomes of a value that stands `depth` containers deep: it is nested too deep, or it gets a cell. -/
inductive Converts (p : ConversionPolicy) (s : Store) (depth : ℕ) (v : Value CellId) :
    Except BridgeError CellId × Store → Prop where
  | deep (t : Store) (exceeds : p.maxDepth < depth + p.nesting v) :
      Converts p s depth v (.error (.tooDeep p.maxDepth), t)
  | placed (c : CellId) (t : Store) (fits : depth + p.nesting v ≤ p.maxDepth) (placed : p.Placed s t v c) :
      Converts p s depth v (.ok c, t)

section placing

variable {p : ConversionPolicy} {s t : Store}

theorem keeps_place (data : Datum CellId) (s : Store) : s.Keeps (place Store.construct data s).2 :=
  (Store.keeps_construct s data).trans (Store.keeps_hold _ _)

theorem new_place (data : Datum CellId) (s : Store) : s.cells.size ≤ (place Store.construct data s).1.index := by
  show _ ≤ ((s.construct data).2.hold (s.construct data).1).1.index
  rw [Store.hold_eq]
  exact (Store.keeps_construct s data).cells

theorem binding?_place (data : Datum CellId) (s : Store) :
    (place Store.construct data s).2.binding? (place Store.construct data s).1 = some s.nextHandle := by
  have same : (s.construct data).1 = s.nextHandle := Store.allocate_fst s _
  rw [← same]
  exact Store.binding?_hold_self _ _

theorem object?_place (data : Datum CellId) (s : Store) :
    (place Store.construct data s).2.object? s.nextHandle = some (.value data) := by
  have same : (s.construct data).1 = s.nextHandle := Store.allocate_fst s _
  have issued := Ledger.issued_construct s data
  rw [same] at issued
  show ((s.construct data).2.hold (s.construct data).1).2.object? _ = _
  rw [(Store.keeps_hold _ _).object _ issued, ← same]
  exact Ledger.object?_allocate_self s _

/-- A value whose slot is all that holds it. -/
theorem placed_place {v : Value CellId} {data : Datum CellId}
    (encodes : ∀ t h, t.object? h = some (.value data) → p.Encodes t v h) :
    p.Placed s (place Store.construct data s).2 v (place Store.construct data s).1 := by
  have bound := binding?_place data s
  have read := Store.read_of_binding? bound
  refine ⟨keeps_place data s, new_place data s, read ▸ bound, ?_, ?_⟩
  · rw [read]
    exact Store.not_issued_nextHandle s
  · rw [read]
    exact encodes _ _ (object?_place data s)

/-- A container whose parts were placed before; their cells go. -/
theorem placed_placeContainer {v : Value CellId} {data : Datum CellId} {parts : List CellId} (keeps : s.Keeps t)
    (new : ∀ c ∈ parts, s.cells.size ≤ c.index ∧ c.index < t.cells.size)
    (encodes : ∀ w h, (∀ k, Agrees t w k) → w.object? h = some (.value data) → p.Encodes w v h) :
    p.Placed s (placeContainer Store.construct data parts t).2 v (placeContainer Store.construct data parts t).1 := by
  show p.Placed s ((place Store.construct data t).2.releaseAll parts) v (place Store.construct data t).1
  have made := keeps_place data t
  have there := object?_place data t
  have apart : (place Store.construct data t).1 ∉ parts := fun inside =>
    absurd (new _ inside).2 (not_lt.mpr (new_place data t))
  have bound := (Store.binding?_releaseAll parts apart).trans (binding?_place data t)
  have read := Store.read_of_binding? bound
  rw [← Store.object?_releaseAll parts] at there
  refine ⟨?_, keeps.cells.trans (new_place data t), ?_, ?_, ?_⟩
  · exact (keeps.trans made).releaseAll parts fun c hc => (new c hc).1
  · rw [read]
    exact bound
  · rw [read]
    exact fun issued => Store.not_issued_nextHandle t (issued.mono keeps.last)
  · rw [read]
    refine encodes _ _ (fun k j other reaches found => ?_) there
    rw [Store.object?_releaseAll]
    exact made.agrees k j other reaches found

/-- What becomes of the items of a list that stands `depth` containers deep. -/
inductive ConvertsItems (p : ConversionPolicy) (s : Store) (depth : ℕ) (items : List (Value CellId)) :
    Except BridgeError (List CellId) × Store → Prop where
  | deep (t : Store) (exceeds : p.maxDepth < depth + p.nestingItems items) :
      ConvertsItems p s depth items (.error (.tooDeep p.maxDepth), t)
  | placed (cs : List CellId) (t : Store) (fits : depth + p.nestingItems items ≤ p.maxDepth) (keeps : s.Keeps t)
      (new : ∀ c ∈ cs, s.cells.size ≤ c.index ∧ c.index < t.cells.size)
      (encodes : p.EncodesItems t items (cs.map t.read)) : ConvertsItems p s depth items (.ok cs, t)

/-- What becomes of the fields of a record that stands `depth` containers deep. -/
inductive ConvertsFields (p : ConversionPolicy) (s : Store) (depth : ℕ) (fields : List (String × Value CellId)) :
    Except BridgeError (List CellId) × Store → Prop where
  | deep (t : Store) (exceeds : p.maxDepth < depth + p.nestingFields fields) :
      ConvertsFields p s depth fields (.error (.tooDeep p.maxDepth), t)
  | placed (cs : List CellId) (t : Store) (fits : depth + p.nestingFields fields ≤ p.maxDepth) (keeps : s.Keeps t)
      (new : ∀ c ∈ cs, s.cells.size ≤ c.index ∧ c.index < t.cells.size)
      (encodes : p.EncodesFields t fields (Datum.pairUp (cs.map t.read))) : ConvertsFields p s depth fields (.ok cs, t)

theorem Placed.inside {v : Value CellId} {c : CellId} (placed : p.Placed s t v c) : c.index < t.cells.size := by
  obtain ⟨_, there, _⟩ := Store.cell?_of_binding? placed.bound
  exact Store.lt_of_cell? there

/-- What was placed is still there when something else was placed after it. -/
theorem Placed.later {v : Value CellId} {c : CellId} {w : Store} (placed : p.Placed s t v c) (keeps : t.Keeps w) :
    p.Encodes w v (w.read c) := by
  rw [keeps.read placed.inside]
  exact Encodes.mono v (keeps.agrees _) placed.encodes

/-- A value with a slot of its own. -/
theorem converts_place {v : Value CellId} {data : Datum CellId} {depth : ℕ} (shallow : ¬ p.maxDepth < depth)
    (flat : p.nesting v = 0) (encodes : ∀ t h, t.object? h = some (.value data) → p.Encodes t v h) :
    p.Converts s depth v (.ok (place Store.construct data s).1, (place Store.construct data s).2) :=
  .placed _ _ (by omega) (placed_place encodes)

/-- A container whose kind is not enabled gets a box. -/
theorem converts_box {v : Value CellId} {depth : ℕ} (shallow : ¬ p.maxDepth < depth)
    (container : (∃ items, v = .list items ∧ ¬ p.allows .list = true) ∨
      ∃ fields, v = .record fields ∧ ¬ p.allows .record = true) :
    p.Converts s depth v (.ok (place Store.construct (.host v) s).1, (place Store.construct (.host v) s).2) := by
  rcases container with ⟨items, rfl, disabled⟩ | ⟨fields, rfl, disabled⟩
  all_goals
    refine converts_place shallow ?_ fun t h found => ?_
    · unfold nesting
      exact if_neg disabled
    · unfold Encodes
      refine ⟨[], ?_, fun enabled => absurd enabled disabled⟩
      rwa [enclose_of_not_allows disabled]

mutual

/-- **A value is placed in the store, unless it is nested too deep.** -/
theorem converts_toForeignAt : ∀ (v : Value CellId) {depth : ℕ} {s : Store}, p.isPlain v = true →
    p.Converts s depth v (p.toForeignAt Store.construct depth v s)
  | .foreign _, _, _, plain | .function _ _, _, _, plain => by
      unfold isPlain at plain
      cases plain
  | .nil, depth, s, _ | .bool _, depth, s, _ | .int _, depth, s, _ | .float _, depth, s, _ | .str _, depth, s, _
  | .symbol _, depth, s, _ => by
      unfold toForeignAt
      split
      · next exceeds => exact .deep s (Nat.lt_add_right _ exceeds)
      · next shallow =>
        refine converts_place shallow (by unfold nesting; rfl) fun t h found => ?_
        unfold Encodes
        exact found
  | .list items, depth, s, plain => by
      unfold toForeignAt
      split
      · next exceeds => exact .deep s (Nat.lt_add_right _ exceeds)
      · next shallow =>
        dsimp only
        split
        · next enabled =>
          unfold isPlain at plain
          rw [enabled] at plain
          have parts := converts_toForeignItems items (s := s) (not_lt.mp shallow) plain
          have nested : p.nesting (.list items) = p.nestingItems items := by
            unfold nesting
            exact if_pos enabled
          generalize p.toForeignItems Store.construct (depth + 1) items s = result at parts ⊢
          cases parts with
          | deep t exceeds => exact .deep t (nested ▸ exceeds)
          | placed cs t fits keeps new encodes =>
            refine .placed _ _ (nested ▸ fits) (placed_placeContainer keeps new fun w h agrees found => ?_)
            unfold Encodes
            refine ⟨_, ?_, fun _ => EncodesItems.mono items (fun k _ => agrees k) encodes⟩
            rwa [enclose_of_allows enabled]
        · next disabled => exact converts_box shallow (.inl ⟨items, rfl, disabled⟩)
  | .record fields, depth, s, plain => by
      unfold toForeignAt
      split
      · next exceeds => exact .deep s (Nat.lt_add_right _ exceeds)
      · next shallow =>
        dsimp only
        split
        · next enabled =>
          unfold isPlain at plain
          rw [enabled] at plain
          have parts := converts_toForeignFields fields (s := s) (not_lt.mp shallow) plain
          have nested : p.nesting (.record fields) = p.nestingFields fields := by
            unfold nesting
            exact if_pos enabled
          generalize p.toForeignFields Store.construct (depth + 1) fields s = result at parts ⊢
          cases parts with
          | deep t exceeds => exact .deep t (nested ▸ exceeds)
          | placed cs t fits keeps new encodes =>
            refine .placed _ _ (nested ▸ fits) (placed_placeContainer keeps new fun w h agrees found => ?_)
            unfold Encodes
            refine ⟨_, ?_, fun _ => EncodesFields.mono fields (fun kv _ => ⟨agrees kv.1, agrees kv.2⟩) encodes⟩
            rwa [enclose_of_allows enabled]
        · next disabled => exact converts_box shallow (.inr ⟨fields, rfl, disabled⟩)

theorem converts_toForeignItems : ∀ (items : List (Value CellId)) {depth : ℕ} {s : Store}, depth ≤ p.maxDepth →
    p.isPlainItems items = true → p.ConvertsItems s depth items (p.toForeignItems Store.construct (depth + 1) items s)
  | [], depth, s, shallow, _ => by
      unfold toForeignItems
      refine .placed [] s shallow (.refl s) (fun c hc => by cases hc) ?_
      unfold EncodesItems
      rfl
  | v :: rest, depth, s, shallow, plain => by
      unfold isPlainItems at plain
      obtain ⟨first, others⟩ := Bool.and_eq_true_iff.mp plain
      have most : p.nestingItems (v :: rest) = max (p.nesting v + 1) (p.nestingItems rest) := by
        conv_lhs => unfold nestingItems
      have head : p.Converts s (depth + 1) v (p.toForeignAt Store.construct (depth + 1) v s) :=
        converts_toForeignAt v first
      unfold toForeignItems
      generalize p.toForeignAt Store.construct (depth + 1) v s = result at head ⊢
      cases head with
      | deep t exceeds => exact .deep t (by omega)
      | placed c t fits placed =>
        have tail := converts_toForeignItems rest (s := t) shallow others
        dsimp only
        generalize p.toForeignItems Store.construct (depth + 1) rest t = result at tail ⊢
        cases tail with
        | deep t' exceeds => exact .deep _ (by omega)
        | placed cs t' fits' keeps new encodes =>
          refine .placed (c :: cs) t' (by omega) (placed.keeps.trans keeps) ?_ ?_
          · intro d hd
            rcases List.mem_cons.mp hd with rfl | hd
            · exact ⟨placed.new, placed.inside.trans_le keeps.cells⟩
            · exact ⟨placed.keeps.cells.trans (new d hd).1, (new d hd).2⟩
          · unfold EncodesItems
            exact ⟨_, _, rfl, placed.later keeps, encodes⟩

theorem converts_toForeignFields :
    ∀ (fields : List (String × Value CellId)) {depth : ℕ} {s : Store}, depth ≤ p.maxDepth →
    p.isPlainFields fields = true →
    p.ConvertsFields s depth fields (p.toForeignFields Store.construct (depth + 1) fields s)
  | [], depth, s, shallow, _ => by
      unfold toForeignFields
      refine .placed [] s shallow (.refl s) (fun c hc => by cases hc) ?_
      unfold EncodesFields
      rfl
  | (key, v) :: rest, depth, s, shallow, plain => by
      unfold isPlainFields at plain
      obtain ⟨first, others⟩ := Bool.and_eq_true_iff.mp plain
      have most : p.nestingFields ((key, v) :: rest) = max (p.nesting v + 1) (p.nestingFields rest) := by
        conv_lhs => unfold nestingFields
      have keeps := keeps_place (.symbol key) s
      have new := new_place (.symbol key) s
      have bound := binding?_place (.symbol key) s
      have named := object?_place (.symbol key) s
      unfold toForeignFields
      dsimp only
      generalize place Store.construct (.symbol key) s = placed at keeps new bound named ⊢
      obtain ⟨k, s'⟩ := placed
      dsimp only at keeps new bound named ⊢
      obtain ⟨_, there, _⟩ := Store.cell?_of_binding? bound
      have inside := Store.lt_of_cell? there
      have head : p.Converts s' (depth + 1) v (p.toForeignAt Store.construct (depth + 1) v s') :=
        converts_toForeignAt v first
      generalize p.toForeignAt Store.construct (depth + 1) v s' = result at head ⊢
      cases head with
      | deep t exceeds => exact .deep _ (by omega)
      | placed c t fits placed =>
        have tail := converts_toForeignFields rest (s := t) shallow others
        dsimp only
        generalize p.toForeignFields Store.construct (depth + 1) rest t = result at tail ⊢
        cases tail with
        | deep t' exceeds => exact .deep _ (by omega)
        | placed cs t' fits' keeps' new' encodes =>
          have onward := placed.keeps.trans keeps'
          refine .placed (k :: c :: cs) t' (by omega) (keeps.trans onward) ?_ ?_
          · intro d hd
            rcases List.mem_cons.mp hd with rfl | hd
            · exact ⟨new, inside.trans_le onward.cells⟩
            · rcases List.mem_cons.mp hd with rfl | hd
              · exact ⟨keeps.cells.trans placed.new, placed.inside.trans_le keeps'.cells⟩
              · exact ⟨(keeps.cells.trans placed.keeps.cells).trans (new' d hd).1, (new' d hd).2⟩
          · have read := (onward.read inside).trans (Store.read_of_binding? bound)
            unfold EncodesFields
            refine ⟨_, _, _, rfl, ?_, placed.later keeps', encodes⟩
            rw [read]
            exact onward.agrees _ _ _ .refl named

end

theorem converts_toForeign {v : Value CellId} (plain : p.isPlain v = true) (s : Store) :
    p.Converts s 0 v (p.toForeign v s) := converts_toForeignAt v plain

end placing

end ConversionPolicy

end ForeignBridge
