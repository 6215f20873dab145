import ForeignBridge.Proofs.Encodings
import ForeignBridge.Proofs.Faults

/-! # What a conversion from the foreign store reads

The result of a conversion has cells of boxed values, which were there before, and new cells for what is not converted.
An outcome (`ConversionPolicy.outcome`) says of each cell which of the two it is, and of a new one what it is bound to; so
outcomes can be compared although their new cells have numbers of their own.

The outcome is a matter of the objects in the store. It is computed by `reading`, which goes down the slots as the
conversion does, but leaves the store alone (`outcomeWithin_eq_reading`). -/

namespace ForeignBridge

/-! ### Cells and what they come from -/

namespace Value

variable {ρ σ : Type} {f g : ρ → σ}

mutual

theorem map_congr : ∀ v : Value ρ, (∀ c ∈ v.references, f c = g c) → v.map f = v.map g
  | .nil, _ | .bool _, _ | .int _, _ | .float _, _ | .str _, _ | .symbol _, _ => rfl
  | .foreign c, same | .function c _, same => by rw [map, map, same c List.mem_cons_self]
  | .list items, same => congrArg Value.list (mapItems_congr items same)
  | .record fields, same => congrArg Value.record (mapFields_congr fields same)

theorem mapItems_congr : ∀ items : List (Value ρ), (∀ c ∈ referencesItems items, f c = g c) →
    mapItems f items = mapItems g items
  | [], _ => rfl
  | v :: rest, same => by
    rw [mapItems, mapItems, map_congr v fun c hc => same c (List.mem_append_left _ hc),
      mapItems_congr rest fun c hc => same c (List.mem_append_right _ hc)]

theorem mapFields_congr : ∀ fields : List (String × Value ρ), (∀ c ∈ referencesFields fields, f c = g c) →
    mapFields f fields = mapFields g fields
  | [], _ => rfl
  | (key, v) :: rest, same => by
    rw [mapFields, mapFields, map_congr v fun c hc => same c (List.mem_append_left _ hc),
      mapFields_congr rest fun c hc => same c (List.mem_append_right _ hc)]

end

theorem has_mapFields (f : ρ → σ) (key : String) (fields : List (String × Value ρ)) :
    Keyed.has key (mapFields f fields) = Keyed.has key fields := by
  induction fields with
  | nil => rfl
  | cons e rest ih =>
    unfold Keyed.has at ih ⊢
    unfold mapFields Keyed.get?
    split
    · rfl
    · exact ih

theorem insert_mapFields (f : ρ → σ) (key : String) (v : Value ρ) (fields : List (String × Value ρ)) :
    Keyed.insert key (v.map f) (mapFields f fields) = mapFields f (Keyed.insert key v fields) := by
  induction fields with
  | nil => rfl
  | cons e rest ih =>
    obtain ⟨k, w⟩ := e
    unfold mapFields Keyed.insert
    split
    · rfl
    · split
      · rfl
      · exact congrArg _ ih

end Value

namespace Store

/-- Where a cell that `t` has comes from: it was in `s` already, or it is new and bound to a handle. -/
def origin (s t : Store) (c : CellId) : CellId ⊕ Handle := if c.index < s.cells.size then .inl c else .inr (t.read c)

variable {s t u w : Store} {c : CellId}

/-- On the way from `u` to `t` the objects have stayed, and so have the cells that were new to `s`. -/
structure Aside (s u t : Store) : Prop where
  objects : ∀ h, t.object? h = u.object? h
  cells : u.cells.size ≤ t.cells.size
  bound : ∀ c, s.cells.size ≤ c.index → c.index < u.cells.size → t.binding? c = u.binding? c

/-- A cell of a result that came about on the way from `u` to `t`. -/
def Came (s u t : Store) (c : CellId) : Prop :=
  c.index < s.cells.size ∨ u.cells.size ≤ c.index ∧ c.index < t.cells.size

theorem Aside.refl (s u : Store) : s.Aside u u := ⟨fun _ => rfl, le_rfl, fun _ _ _ => rfl⟩

theorem Aside.trans (first : s.Aside u t) (second : s.Aside t w) : s.Aside u w where
  objects h := (second.objects h).trans (first.objects h)
  cells := first.cells.trans second.cells
  bound c new there := (second.bound c new (there.trans_le first.cells)).trans (first.bound c new there)

theorem aside_inspect (s u : Store) (h : Handle) : s.Aside u (u.inspect h).2 := by
  have noted : (u.inspect h).2 = u.note .inspect := by
    unfold inspect
    dsimp only
    split <;> rfl
  rw [noted]
  exact ⟨fun _ => rfl, le_rfl, fun _ _ _ => rfl⟩

theorem aside_retainAll (s u : Store) (cs : List CellId) : s.Aside u (u.retainAll cs) where
  objects := object?_congr (Ledger.slots_retainAll cs u)
  cells := (keeps_retainAll cs u).cells
  bound c _ there := (keeps_retainAll cs u).binding c there

theorem aside_hold (s u : Store) (h : Handle) : s.Aside u (u.hold h).2 where
  objects := object?_hold u h
  cells := (keeps_hold u h).cells
  bound c _ there := (keeps_hold u h).binding c there

theorem Aside.releaseAll (aside : s.Aside u t) {cs : List CellId} (came : ∀ c ∈ cs, s.Came u t c) :
    s.Aside u (t.releaseAll cs) where
  objects h := (object?_releaseAll cs h t).trans (aside.objects h)
  cells := aside.cells.trans (size_cells_releaseAll cs t).ge
  bound c new there := by
    have apart : c ∉ cs := by
      intro listed
      rcases came c listed with old | ⟨later, _⟩
      · exact absurd old new.not_gt
      · exact absurd there later.not_gt
    rw [binding?_releaseAll cs apart]
    exact aside.bound c new there

theorem Came.mono (came : s.Came u t c) (aside : s.Aside t w) : s.Came u w c :=
  came.imp_right fun ⟨new, there⟩ => ⟨new, there.trans_le aside.cells⟩

theorem Came.later (came : s.Came t w c) (aside : s.Aside u t) : s.Came u w c :=
  came.imp_right fun ⟨new, there⟩ => ⟨aside.cells.trans new, there⟩

theorem Came.origin_eq (came : s.Came u t c) (aside : s.Aside t w) : s.origin w c = s.origin t c := by
  unfold origin
  split
  · rfl
  · next new =>
    obtain ⟨-, there⟩ := came.resolve_left new
    rw [read_congr (aside.bound c (not_lt.mp new) there)]

/-- The data in a slot, as an inspection shows it. -/
def shown (s : Store) (h : Handle) : Datum CellId := (s.inspect h).1

theorem shown_congr (same : ∀ h, t.object? h = s.object? h) (h : Handle) : t.shown h = s.shown h := by
  have objects : (t.note .inspect).object? h = (s.note .inspect).object? h := same h
  unfold shown inspect
  dsimp only
  rw [objects]
  split <;> rfl

theorem shown_of_value {h : Handle} {data : Datum CellId} (found : s.object? h = some (.value data)) :
    s.shown h = data := by rw [shown, ConversionPolicy.inspect_of_value found]

theorem object?_of_shown {h : Handle} {data : Datum CellId} (shows : s.shown h = data) (known : data ≠ .unknown) :
    s.object? h = some (.value data) := by
  unfold shown inspect at shows
  dsimp only at shows
  split at shows
  · next found => exact shows ▸ found
  · exact absurd shows.symm known

/-- The text by which a slot can name a field. -/
def keyText? (s : Store) (h : Handle) : Option String := ConversionPolicy.keyText? (s.shown h)

end Store

/-! ### Reading -/

/-- A value as it stands in an outcome: a cell was there before, or it is new and bound to a handle. -/
abbrev Reading := Value (CellId ⊕ Handle)

namespace ConversionPolicy

/-- Reads handles from left to right. -/
def readItems (read : Handle → Except BridgeError Reading) : List Handle → Except BridgeError (List Reading)
  | [] => .ok []
  | h :: rest =>
    match read h with
    | .error e => .error e
    | .ok v =>
      match readItems read rest with
      | .error e => .error e
      | .ok vs => .ok (v :: vs)

/-- Reads pairs into the fields of a record; none at the first key that cannot name a new field. -/
def readPairs (read : Handle → Except BridgeError Reading) (key? : Handle → Option String) (fields : Keyed Reading) :
    List (Handle × Handle) → Except BridgeError (Option (Keyed Reading))
  | [] => .ok (some fields)
  | (k, h) :: rest =>
    match key? k with
    | none => .ok none
    | some key =>
      if Keyed.has key fields then .ok none
      else
        match read h with
        | .error e => .error e
        | .ok v => readPairs read key? (Keyed.insert key v fields) rest

/-- What a slot that is not converted is read as. -/
def unread (h : Handle) : Except BridgeError Reading := .ok (.foreign (.inr h))

/-- Reads the slot of a handle, through at most `budget` slots in a row. -/
def reading (p : ConversionPolicy) (s : Store) : ℕ → Handle → Except BridgeError Reading
  | 0, _ => .error (.tooDeep p.maxDepth)
  | budget + 1, h =>
    let native := fun (k : NativeKind) (v : Reading) => if p.allows k then .ok v else unread h
    match s.shown h with
    | .host v => .ok (v.map .inl)
    | .nothing => native .nil .nil
    | .bool b => native .bool (.bool b)
    | .int i => native .int (.int i)
    | .float x => native .float (.float x)
    | .str text => native .string (.str text)
    | .symbol name => native .symbol (.symbol name)
    | .array items =>
      if p.allows .list then
        match readItems (p.reading s budget) items with
        | .error e => .error e
        | .ok vs => .ok (.list vs)
      else unread h
    | .dict pairs =>
      if p.allows .record then
        match readPairs (p.reading s budget) s.keyText? [] pairs with
        | .error e => .error e
        | .ok (some fields) => .ok (.record fields)
        | .ok none => unread h
      else unread h
    | .unknown => unread h

/-- The result `result` of an operation on `u` shows as `read`, with the store `s` as what was there before. -/
inductive Reads {α β : Type} (s u : Store) (cells : α → List CellId) (view : (CellId → CellId ⊕ Handle) → α → β) :
    Except BridgeError β → Except BridgeError α × Store → Prop where
  | error (e : BridgeError) (t : Store) (aside : s.Aside u t) : Reads s u cells view (.error e) (.error e, t)
  | ok (a : α) (t : Store) (aside : s.Aside u t) (came : ∀ c ∈ cells a, s.Came u t c) :
    Reads s u cells view (.ok (view (s.origin t) a)) (.ok a, t)

theorem reads_value {s u t : Store} {v : Value CellId} {view : Reading} (same : v.map (s.origin t) = view)
    (aside : s.Aside u t) (came : ∀ c ∈ v.references, s.Came u t c) :
    Reads s u Value.references Value.map (.ok view) (.ok v, t) := same ▸ .ok v t aside came

theorem reads_object {s u t : Store} (h : Handle) (grown : s.cells.size ≤ t.cells.size) (aside : s.Aside u t) :
    Reads s u Value.references Value.map (unread h)
      ((.ok (object h t).1, (object h t).2) : Except BridgeError (Value CellId) × Store) := by
  have number : (t.hold h).1.index = t.cells.size := by
    rw [Store.hold_eq]
    rfl
  have more : (t.hold h).2.cells.size = t.cells.size + 1 := by simp [Store.hold_eq, Store.pushCell]
  have new : s.origin (t.hold h).2 (t.hold h).1 = .inr h := by
    rw [Store.origin, if_neg (by omega), Store.read_of_binding? (t.binding?_hold_self h)]
  refine reads_value (congrArg Value.foreign new) (aside.trans (Store.aside_hold s t h)) fun c hc => ?_
  obtain rfl := List.mem_singleton.mp hc
  have last : (t.hold h).1.index < (t.hold h).2.cells.size := by omega
  exact .inr ⟨aside.cells.trans number.ge, last⟩

section decoder

variable {s : Store} {decode : Decoder} {read : Handle → Except BridgeError Reading}
  (reads : ∀ h u, s.Aside s u → Reads s u Value.references Value.map (read h) (decode h u))

include reads

theorem reads_decodeItems : ∀ (items : List Handle) (u : Store), s.Aside s u →
    Reads s u Value.referencesItems Value.mapItems (readItems read items) (decodeItems decode items u)
  | [], u, _ => .ok [] u (.refl s u) fun _ hc => absurd hc List.not_mem_nil
  | h :: rest, u, before => by
    have head := reads h u before
    unfold readItems decodeItems
    generalize read h = r at head ⊢
    generalize decode h u = d at head ⊢
    cases head with
    | error e t aside => exact .error e t aside
    | ok v t aside came =>
      have tail := reads_decodeItems rest t (before.trans aside)
      dsimp only
      generalize readItems read rest = r at tail ⊢
      generalize decodeItems decode rest t = d at tail ⊢
      cases tail with
      | error e w aside' =>
        exact .error e _ ((aside.trans aside').releaseAll fun c hc => (came c hc).mono aside')
      | ok vs w aside' came' =>
        have view : v.map (s.origin t) = v.map (s.origin w) :=
          Value.map_congr v fun c hc => ((came c hc).origin_eq aside').symm
        dsimp only
        rw [view]
        refine .ok (v :: vs) w (aside.trans aside') fun c hc => ?_
        rcases List.mem_append.mp hc with first | later
        · exact (came c first).mono aside'
        · exact (came' c later).later aside

theorem reads_decodePairs : ∀ (pairs : List (Handle × Handle)) (fields : Keyed (Value CellId)) (u t : Store),
    s.Aside s u → s.Aside u t → (∀ c ∈ Value.referencesFields fields, s.Came u t c) →
    Reads s u (fun fields => (fields.map Value.referencesFields).getD [])
      (fun f fields => fields.map (Value.mapFields f))
      (readPairs read s.keyText? (Value.mapFields (s.origin t) fields) pairs) (decodePairs decode fields pairs t)
  | [], fields, u, t, _, aside, came => .ok (some fields) t aside came
  | (k, h) :: rest, fields, u, t, before, aside, came => by
    have shows : (t.inspect k).1 = s.shown k := Store.shown_congr (before.trans aside).objects k
    have looked := aside.trans (Store.aside_inspect s t k)
    have kept : ∀ {w}, s.Aside (t.inspect k).2 w → ∀ c ∈ Value.referencesFields fields, s.Came u w c :=
      fun later c hc => (came c hc).mono ((Store.aside_inspect s t k).trans later)
    have view : Value.mapFields (s.origin t) fields = Value.mapFields (s.origin (t.inspect k).2) fields :=
      Value.mapFields_congr fields fun c hc => ((came c hc).origin_eq (Store.aside_inspect s t k)).symm
    have name : s.keyText? k = keyText? (t.inspect k).1 := congrArg keyText? shows.symm
    unfold readPairs decodePairs
    rw [view, name]
    generalize t.inspect k = inspected at looked kept ⊢
    obtain ⟨data, t'⟩ := inspected
    dsimp only at looked kept ⊢
    cases keyText? data with
    | none => exact .ok none _ (looked.releaseAll (kept (.refl s t'))) fun _ hc => absurd hc List.not_mem_nil
    | some key =>
      dsimp only
      rw [Value.has_mapFields]
      split
      · exact .ok none _ (looked.releaseAll (kept (.refl s t'))) fun _ hc => absurd hc List.not_mem_nil
      · next absent =>
        have head := reads h t' (before.trans looked)
        generalize read h = r at head ⊢
        generalize decode h t' = d at head ⊢
        cases head with
        | error e w later => exact .error e _ ((looked.trans later).releaseAll (kept later))
        | ok v w later came' =>
          have grown : ∀ c ∈ Value.referencesFields (Keyed.insert key v fields), s.Came u w c := by
            intro c hc
            rcases List.mem_append.mp ((Ledger.perm_referencesFields_insert (by simpa using absent)).mem_iff.mp hc) with
              new | old
            · exact (came' c new).later looked
            · exact kept later c old
          have view' : Value.mapFields (s.origin t') fields = Value.mapFields (s.origin w) fields :=
            Value.mapFields_congr fields fun c hc => ((kept (.refl s t') c hc).origin_eq later).symm
          dsimp only
          rw [view', Value.insert_mapFields]
          exact reads_decodePairs rest _ u w before (looked.trans later) grown

end decoder

/-- **A conversion gives what is read**, in every store with the same objects and with more cells. -/
theorem reads_fromForeignWithin (p : ConversionPolicy) {s : Store}
    (boxed : ∀ c ∈ s.boxed, c.index < s.cells.size) (budget : ℕ) (h : Handle) (u : Store) (before : s.Aside s u) :
    Reads s u Value.references Value.map (p.reading s budget h) (p.fromForeignWithin budget h u) := by
  induction budget generalizing h u with
  | zero => exact .error _ u (.refl s u)
  | succ budget ih =>
    have shows : (u.inspect h).1 = s.shown h := Store.shown_congr before.objects h
    have looked := Store.aside_inspect s u h
    have opened : ∀ v, s.shown h = .host v → ∀ c ∈ v.references, c.index < s.cells.size := by
      intro v shows c hc
      obtain ⟨slot, found, same⟩ := Store.object?_eq_some.mp (Store.object?_of_shown shows (by simp))
      exact boxed c (Store.mem_boxed_of_slot? found (same ▸ hc))
    unfold reading fromForeignWithin
    rw [← shows] at opened ⊢
    generalize u.inspect h = inspected at looked opened ⊢
    obtain ⟨data, u'⟩ := inspected
    dsimp only at looked opened ⊢
    have held : ∀ {t}, s.Aside u t → Reads s u Value.references Value.map (unread h)
        ((.ok (object h t).1, (object h t).2) : Except BridgeError (Value CellId) × Store) :=
      fun later => reads_object h (before.trans later).cells later
    have native : ∀ {v : Value CellId} {view : Reading}, v.map (s.origin u') = view → v.references = [] →
        Reads s u Value.references Value.map (.ok view) (.ok v, u') := fun same none =>
      reads_value same looked fun c hc => absurd hc (none ▸ List.not_mem_nil)
    cases data with
    | host v =>
      have old := opened v rfl
      refine reads_value (Value.map_congr v fun c hc => if_pos (old c hc)) ?_ fun c hc => .inl (old c hc)
      exact looked.trans (Store.aside_retainAll s u' v.references)
    | nothing | bool | int | float | str | symbol =>
      dsimp only
      split
      · exact native rfl rfl
      · exact held looked
    | array items =>
      dsimp only
      split
      · have decoded := reads_decodeItems ih items u' (before.trans looked)
        generalize readItems (p.reading s budget) items = r at decoded ⊢
        generalize decodeItems (p.fromForeignWithin budget) items u' = d at decoded ⊢
        cases decoded with
        | error e t aside => exact .error e t (looked.trans aside)
        | ok vs t aside came => exact reads_value rfl (looked.trans aside) fun c hc => (came c hc).later looked
      · exact held looked
    | dict pairs =>
      dsimp only
      split
      · have decoded := reads_decodePairs ih pairs [] u' u' (before.trans looked) (.refl s u')
          fun _ hc => absurd hc List.not_mem_nil
        rw [Value.mapFields] at decoded
        generalize readPairs (p.reading s budget) s.keyText? [] pairs = r at decoded ⊢
        generalize decodePairs (p.fromForeignWithin budget) [] pairs u' = d at decoded ⊢
        cases decoded with
        | error e t aside => exact .error e t (looked.trans aside)
        | ok fields t aside came =>
          cases fields with
          | none => exact held (looked.trans aside)
          | some fields => exact reads_value rfl (looked.trans aside) fun c hc => (came c hc).later looked
      · exact held looked
    | unknown => exact held looked

/-- What a conversion through at most `budget` slots in a row comes to, with each cell by its origin. -/
def outcomeWithin (p : ConversionPolicy) (budget : ℕ) (h : Handle) (s : Store) : Except BridgeError Reading :=
  (p.fromForeignWithin budget h s).1.map (Value.map (s.origin (p.fromForeignWithin budget h s).2))

/-- What a conversion comes to, with each cell by its origin. -/
def outcome (p : ConversionPolicy) (h : Handle) (s : Store) : Except BridgeError Reading :=
  (p.fromForeign h s).1.map (Value.map (s.origin (p.fromForeign h s).2))

/-- **The outcome of a conversion is a matter of the objects.** -/
theorem outcomeWithin_eq_reading (p : ConversionPolicy) {s : Store}
    (boxed : ∀ c ∈ s.boxed, c.index < s.cells.size) (budget : ℕ) (h : Handle) :
    p.outcomeWithin budget h s = p.reading s budget h := by
  have reads := reads_fromForeignWithin p boxed budget h s (.refl s s)
  unfold outcomeWithin
  generalize p.reading s budget h = r at reads ⊢
  generalize p.fromForeignWithin budget h s = d at reads ⊢
  cases reads <;> rfl

theorem outcome_eq_reading (p : ConversionPolicy) {s : Store}
    (boxed : ∀ c ∈ s.boxed, c.index < s.cells.size) (h : Handle) :
    p.outcome h s = p.reading s (p.maxDepth + 1) h := outcomeWithin_eq_reading p boxed _ h

/-- A conversion fails only because something is nested too deep. -/
theorem eq_tooDeep_of_outcomeWithin {p : ConversionPolicy} {budget : ℕ} {h : Handle} {s : Store} {e : BridgeError}
    (failed : p.outcomeWithin budget h s = .error e) : e = .tooDeep p.maxDepth := by
  have looks := looks_fromForeignWithin p budget h s
  unfold outcomeWithin at failed
  generalize p.fromForeignWithin budget h s = d at looks failed
  cases looks with
  | ok => cases failed
  | deep => exact (Except.error.inj failed).symm

end ConversionPolicy

end ForeignBridge
