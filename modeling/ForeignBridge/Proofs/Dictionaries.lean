import ForeignBridge.Proofs.Readings

/-! # Dictionaries and the order of their pairs

A dictionary names fields if its keys are texts, and different ones. Then it is read as a record, and the order of its
pairs does not matter. Any other dictionary stays a foreign object, unless a value that nests too deep comes before the
first key that is in the way: then the conversion fails. So the order of the pairs decides whether it is a foreign object
or a failure (`dictionaries_convert`). -/

namespace ForeignBridge

namespace Keyed

variable {α : Type}

theorem has_insert (name key : String) (value : α) (table : Keyed α) :
    has name (insert key value table) = (name == key || has name table) := by
  unfold has
  rw [get?_insert]
  by_cases same : name = key <;> simp [same]

/-- Two tables with the same entries are the same. -/
theorem Ascends.eq_of_perm {table other : Keyed α} (ascends : Ascends table) (ascends' : Ascends other)
    (same : table.Perm other) : table = other := by
  have ordered : ∀ {table : Keyed α}, Ascends table → table.Pairwise fun a b => a.1 < b.1 :=
    fun ascends => List.pairwise_map.mp ascends
  exact same.eq_of_pairwise (fun a b _ _ before after => absurd before after.asymm) (ordered ascends) (ordered ascends')

/-- Entries under different keys make the same table in any order. -/
theorem ofList_eq_of_perm {entries others : List (String × α)} (distinct : (entries.map Prod.fst).Nodup)
    (same : entries.Perm others) : ofList entries = ofList others := by
  have distinct' : (others.map Prod.fst).Nodup := (same.map Prod.fst).nodup_iff.mp distinct
  refine (ascends_ofList entries).eq_of_perm (ascends_ofList others) ?_
  exact (perm_ofList distinct).trans (same.trans (perm_ofList distinct').symm)

end Keyed

namespace ConversionPolicy

/-! ### Reading pairs -/

section pairs

variable {read : Handle → Except BridgeError Reading} {key? : Handle → Option String}

/-- The keys of the pairs are texts, different ones, and none of them names a field that is there. -/
structure Names (key? : Handle → Option String) (fields : Keyed Reading) (pairs : List (Handle × Handle)) : Prop where
  new : ∀ kv ∈ pairs, ∃ name, key? kv.1 = some name ∧ Keyed.has name fields = false
  distinct : (pairs.map fun kv => key? kv.1).Nodup

theorem names_nil (fields : Keyed Reading) : Names key? fields [] := ⟨fun _ hkv => absurd hkv List.not_mem_nil, .nil⟩

theorem names_cons {fields : Keyed Reading} {k h : Handle} {rest : List (Handle × Handle)} {name : String}
    (named : key? k = some name) (v : Reading) : Names key? fields ((k, h) :: rest) ↔
      Keyed.has name fields = false ∧ Names key? (Keyed.insert name v fields) rest := by
  constructor
  · rintro ⟨new, distinct⟩
    rw [List.map_cons, List.nodup_cons, named] at distinct
    obtain ⟨apart, distinct⟩ := distinct
    obtain ⟨name', named', absent⟩ := new _ List.mem_cons_self
    obtain rfl := Option.some.inj (named.symm.trans named')
    refine ⟨absent, fun kv hkv => ?_, distinct⟩
    obtain ⟨other, named'', absent'⟩ := new kv (List.mem_cons_of_mem _ hkv)
    have different : other ≠ name := by
      rintro rfl
      exact apart (List.mem_map.mpr ⟨kv, hkv, named''⟩)
    exact ⟨other, named'', by simp [Keyed.has_insert, different, absent']⟩
  · rintro ⟨absent, new, distinct⟩
    refine ⟨fun kv hkv => ?_, ?_⟩
    · rcases List.mem_cons.mp hkv with rfl | later
      · exact ⟨name, named, absent⟩
      · obtain ⟨other, named', absent'⟩ := new kv later
        exact ⟨other, named', by simpa [Keyed.has_insert] using (by simpa [Keyed.has_insert] using absent' : _ ∧ _).2⟩
    · rw [List.map_cons, List.nodup_cons, named]
      refine ⟨fun listed => ?_, distinct⟩
      obtain ⟨kv, later, named'⟩ := List.mem_map.mp listed
      obtain ⟨other, named'', absent'⟩ := new kv later
      obtain rfl := Option.some.inj (named'.symm.trans named'')
      simp [Keyed.has_insert] at absent'

/-- A value that cannot be read comes before the first key that is in the way. -/
def FailsFirst (read : Handle → Except BridgeError Reading) (key? : Handle → Option String) (fields : Keyed Reading)
    (pairs : List (Handle × Handle)) : Prop :=
  ∃ before kv after e, pairs = before ++ kv :: after ∧ Names key? fields (before ++ [kv]) ∧ read kv.2 = .error e

/-- The entry that a pair is read as. -/
def IsEntry (read : Handle → Except BridgeError Reading) (key? : Handle → Option String) (kv : Handle × Handle)
    (e : String × Reading) : Prop := key? kv.1 = some e.1 ∧ read kv.2 = .ok e.2

/-- Pairs are read as the fields of a record, or a value fails first, or a key is in the way. -/
inductive PairsRead (read : Handle → Except BridgeError Reading) (key? : Handle → Option String)
    (fields : Keyed Reading) (pairs : List (Handle × Handle)) :
    Except BridgeError (Option (Keyed Reading)) → Prop where
  | record (entries : List (String × Reading)) (names : Names key? fields pairs)
      (all : List.Forall₂ (IsEntry read key?) pairs entries) :
      PairsRead read key? fields pairs (.ok (some (entries.foldl (fun table e => Keyed.insert e.1 e.2 table) fields)))
  | failed (before : List (Handle × Handle)) (kv : Handle × Handle) (after : List (Handle × Handle)) (e : BridgeError)
      (split : pairs = before ++ kv :: after) (names : Names key? fields (before ++ [kv])) (fails : read kv.2 = .error e) :
      PairsRead read key? fields pairs (.error e)
  | blocked (other : ¬ Names key? fields pairs) (unfailing : ¬ FailsFirst read key? fields pairs) :
      PairsRead read key? fields pairs (.ok none)

/-- If a value fails first, the first key is not in the way. -/
theorem FailsFirst.head {fields : Keyed Reading} {k h : Handle} {rest : List (Handle × Handle)}
    (first : FailsFirst read key? fields ((k, h) :: rest)) :
    ∃ name, key? k = some name ∧ Keyed.has name fields = false := by
  obtain ⟨before, kv, after, e, split, names, -⟩ := first
  have there : (k, h) ∈ before ++ [kv] := by
    cases before with
    | nil => exact List.mem_singleton.mpr (List.cons.inj split).1
    | cons b before => exact List.mem_append_left _ ((List.cons.inj split).1 ▸ List.mem_cons_self)
  exact names.new _ there

/-- If it is not the first value that fails, it is one of the rest. -/
theorem FailsFirst.tail {fields : Keyed Reading} {k h : Handle} {rest : List (Handle × Handle)} {name : String}
    {v : Reading} (first : FailsFirst read key? fields ((k, h) :: rest)) (named : key? k = some name)
    (value : read h = .ok v) : FailsFirst read key? (Keyed.insert name v fields) rest := by
  obtain ⟨before, kv, after, e, split, names, fails⟩ := first
  cases before with
  | nil =>
    obtain ⟨rfl, -⟩ := List.cons.inj split
    cases value.symm.trans fails
  | cons b before =>
    obtain ⟨rfl, rest⟩ := List.cons.inj split
    exact ⟨before, kv, after, e, rest, ((names_cons named v).mp names).2, fails⟩

theorem pairsRead_readPairs : ∀ (pairs : List (Handle × Handle)) (fields : Keyed Reading),
    PairsRead read key? fields pairs (readPairs read key? fields pairs)
  | [], fields => .record [] (names_nil fields) .nil
  | (k, h) :: rest, fields => by
    have blocked (other : ¬ ∃ name, key? k = some name ∧ Keyed.has name fields = false) :
        PairsRead read key? fields ((k, h) :: rest) (.ok none) :=
      .blocked (fun names => other (names.new _ List.mem_cons_self)) fun first => other first.head
    unfold readPairs
    cases named : key? k with
    | none => exact blocked (by simp [named])
    | some name =>
      dsimp only
      split
      · next taken => exact blocked (by simp [named, taken])
      · next free =>
        have absent : Keyed.has name fields = false := by simpa using free
        cases value : read h with
        | error e =>
          have names := (names_cons named (h := h) (.nil : Reading)).mpr ⟨absent, names_nil _⟩
          exact .failed [] (k, h) rest e rfl names value
        | ok v =>
          have later := pairsRead_readPairs rest (Keyed.insert name v fields)
          dsimp only
          generalize readPairs read key? (Keyed.insert name v fields) rest = r at later ⊢
          cases later with
          | record entries names all =>
            exact .record ((name, v) :: entries) ((names_cons named v).mpr ⟨absent, names⟩) (.cons ⟨named, value⟩ all)
          | failed before kv after e split names fails =>
            have names' := (names_cons named (h := h) v).mpr ⟨absent, names⟩
            exact .failed ((k, h) :: before) kv after e (congrArg _ split) names' fails
          | blocked other unfailing =>
            exact .blocked (fun names => other ((names_cons named v).mp names).2) fun first =>
              unfailing (first.tail named value)

/-- The keys of the entries are those of the pairs. -/
theorem keys_of_isEntry {pairs : List (Handle × Handle)} {entries : List (String × Reading)}
    (all : List.Forall₂ (IsEntry read key?) pairs entries) :
    (pairs.map fun kv => key? kv.1) = (entries.map Prod.fst).map some := by
  induction all with
  | nil => rfl
  | cons here _ ih => rw [List.map_cons, List.map_cons, List.map_cons, here.1, ih]

theorem reads_of_isEntry {pairs : List (Handle × Handle)} {entries : List (String × Reading)}
    (all : List.Forall₂ (IsEntry read key?) pairs entries) : ∀ kv ∈ pairs, ∃ v, read kv.2 = .ok v := by
  induction all with
  | nil => exact fun _ hkv => absurd hkv List.not_mem_nil
  | cons here _ ih => exact List.forall_mem_cons.mpr ⟨⟨_, here.2⟩, ih⟩

namespace PairsRead

variable {fields : Keyed Reading} {pairs : List (Handle × Handle)} {result : Except BridgeError (Option (Keyed Reading))}

theorem ne_none (here : PairsRead read key? fields pairs result) (names : Names key? fields pairs) :
    result ≠ .ok none := by
  cases here with
  | record | failed => simp
  | blocked other _ => exact absurd names other

theorem eq_none (here : PairsRead read key? fields pairs result) (other : ¬ Names key? fields pairs)
    (unfailing : ¬ FailsFirst read key? fields pairs) : result = .ok none := by
  cases here with
  | record _ names _ => exact absurd names other
  | failed before kv after e split names fails => exact absurd ⟨before, kv, after, e, split, names, fails⟩ unfailing
  | blocked => rfl

theorem eq_error (here : PairsRead read key? fields pairs result) (first : FailsFirst read key? fields pairs) :
    ∃ kv ∈ pairs, ∃ e, read kv.2 = .error e ∧ result = .error e := by
  cases here with
  | record _ _ all =>
    obtain ⟨before, kv, after, e, split, -, fails⟩ := first
    obtain ⟨v, value⟩ := reads_of_isEntry all kv (split ▸ List.mem_append_right _ List.mem_cons_self)
    cases value.symm.trans fails
  | failed before kv after e split _ fails =>
    exact ⟨kv, split ▸ List.mem_append_right _ List.mem_cons_self, e, fails, rfl⟩
  | blocked _ unfailing => exact absurd first unfailing

end PairsRead

theorem isEntry_rightUnique : Relator.RightUnique (IsEntry read key?) := by
  rintro kv ⟨key, v⟩ ⟨key', v'⟩ ⟨named, value⟩ ⟨named', value'⟩
  exact Prod.ext (Option.some.inj (named.symm.trans named')) (Except.ok.inj (value.symm.trans value'))

theorem Names.perm {fields : Keyed Reading} {pairs others : List (Handle × Handle)} (names : Names key? fields pairs)
    (same : pairs.Perm others) : Names key? fields others where
  new kv hkv := names.new kv (same.mem_iff.mpr hkv)
  distinct := (same.map _).nodup_iff.mp names.distinct

/-- Pairs that name fields are read alike in any order, if all failures are. -/
theorem readPairs_perm {limit : BridgeError} (deep : ∀ h e, read h = .error e → e = limit)
    {pairs others : List (Handle × Handle)} (names : Names key? [] pairs) (same : pairs.Perm others) :
    readPairs read key? [] pairs = readPairs read key? [] others := by
  have names' := names.perm same
  have here : PairsRead read key? [] pairs _ := pairsRead_readPairs pairs []
  have there : PairsRead read key? [] others _ := pairsRead_readPairs others []
  generalize readPairs read key? [] pairs = r at here ⊢
  generalize readPairs read key? [] others = r' at there ⊢
  cases here with
  | record entries _ all =>
    cases there with
    | record entries' _ all' =>
      obtain ⟨entries'', all'', moved⟩ := List.perm_comp_forall₂ same all'
      obtain rfl := List.right_unique_forall₂' isEntry_rightUnique all all''
      have distinct : (entries.map Prod.fst).Nodup := by
        have distinct := names.distinct
        rw [keys_of_isEntry all] at distinct
        exact .of_map _ distinct
      exact congrArg (fun table => Except.ok (some table)) (Keyed.ofList_eq_of_perm distinct moved)
    | failed before kv after e split _ fails =>
      have listed : kv ∈ others := split ▸ List.mem_append_right _ List.mem_cons_self
      obtain ⟨v, value⟩ := reads_of_isEntry all kv (same.mem_iff.mpr listed)
      cases value.symm.trans fails
    | blocked other _ => exact absurd names' other
  | failed before kv after e split _ fails =>
    cases there with
    | record entries _ all =>
      have listed : kv ∈ pairs := split ▸ List.mem_append_right _ List.mem_cons_self
      obtain ⟨v, value⟩ := reads_of_isEntry all kv (same.mem_iff.mp listed)
      cases value.symm.trans fails
    | failed _ kv' _ e' _ _ fails' => rw [deep _ _ fails, deep _ _ fails']
    | blocked other _ => exact absurd names' other
  | blocked other _ => exact absurd names other

end pairs

end ConversionPolicy

/-! ### Dictionaries -/

/-- The keys of the pairs are strings or symbols, and no two of them have the same text. -/
structure Store.NamesFields (s : Store) (pairs : List (Handle × Handle)) : Prop where
  texts : ∀ kv ∈ pairs, s.keyText? kv.1 ≠ none
  distinct : (pairs.map fun kv => s.keyText? kv.1).Nodup

theorem Store.names_iff {s : Store} {pairs : List (Handle × Handle)} :
    ConversionPolicy.Names s.keyText? [] pairs ↔ s.NamesFields pairs := by
  have new : (∀ kv ∈ pairs, ∃ name, s.keyText? kv.1 = some name ∧ Keyed.has name ([] : Keyed Reading) = false) ↔
      ∀ kv ∈ pairs, s.keyText? kv.1 ≠ none := by
    refine forall₂_congr fun kv _ => ?_
    rw [Option.ne_none_iff_exists']
    exact exists_congr fun name => and_iff_left rfl
  exact ⟨fun ⟨names, distinct⟩ => ⟨new.mp names, distinct⟩, fun ⟨names, distinct⟩ => ⟨new.mpr names, distinct⟩⟩

namespace ConversionPolicy

/-- The value of a handle nests too deep to stand in a dictionary that is converted. -/
def TooDeep (p : ConversionPolicy) (s : Store) (h : Handle) : Prop :=
  (p.fromForeignWithin p.maxDepth h s).1 = .error (.tooDeep p.maxDepth)

/-- A value that nests too deep comes before the first key that is in the way. -/
def DeepFirst (p : ConversionPolicy) (s : Store) (pairs : List (Handle × Handle)) : Prop :=
  ∃ before kv after, pairs = before ++ kv :: after ∧ s.NamesFields (before ++ [kv]) ∧ p.TooDeep s kv.2

section dictionary

variable {p : ConversionPolicy} {s : Store} {h : Handle} {pairs : List (Handle × Handle)}

theorem tooDeep_iff : p.TooDeep s h ↔ ∃ e, p.outcomeWithin p.maxDepth h s = .error e := by
  constructor
  · intro deep
    exact ⟨_, congrArg (Except.map _) deep⟩
  · rintro ⟨e, failed⟩
    have limit := eq_tooDeep_of_outcomeWithin failed
    unfold outcomeWithin at failed
    unfold TooDeep
    cases outcome : (p.fromForeignWithin p.maxDepth h s).1 with
    | ok v =>
      rw [outcome] at failed
      cases failed
    | error e' =>
      rw [outcome] at failed
      rw [Except.error.inj failed, limit]

variable (boxed : ∀ c ∈ s.boxed, c.index < s.cells.size)

include boxed

theorem tooDeep_iff_reading : p.TooDeep s h ↔ ∃ e, p.reading s p.maxDepth h = .error e := by
  rw [tooDeep_iff, outcomeWithin_eq_reading p boxed]

theorem failsFirst_iff : FailsFirst (p.reading s p.maxDepth) s.keyText? [] pairs ↔ p.DeepFirst s pairs := by
  unfold FailsFirst DeepFirst
  simp only [Store.names_iff, tooDeep_iff_reading boxed, exists_and_left]

theorem eq_tooDeep_of_reading {e : BridgeError} (failed : p.reading s p.maxDepth h = .error e) :
    e = .tooDeep p.maxDepth := by
  rw [← outcomeWithin_eq_reading p boxed] at failed
  exact eq_tooDeep_of_outcomeWithin failed

theorem outcome_dictionary (enabled : p.allows .record = true) (found : s.object? h = some (.value (.dict pairs))) :
    p.outcome h s =
      match readPairs (p.reading s p.maxDepth) s.keyText? [] pairs with
      | .error e => .error e
      | .ok (some fields) => .ok (.record fields)
      | .ok none => .ok (.foreign (.inr h)) := by
  rw [outcome_eq_reading p boxed, reading, Store.shown_of_value found]
  exact if_pos enabled

end dictionary

/-- **Dictionaries and the order of their pairs.** A dictionary whose keys are different texts has the same outcome for
any order of its pairs. Any other one comes back as a foreign object for itself, unless a value that nests too deep comes
before the first key that is in the way; then the conversion fails. So it comes back in any order of its pairs if and only
if no value under a text nests too deep. -/
theorem dictionaries_convert (p : ConversionPolicy) (s : Store) (boxed : ∀ c ∈ s.boxed, c.index < s.cells.size)
    (enabled : p.allows .record = true) (h : Handle) (pairs : List (Handle × Handle))
    (found : s.object? h = some (.value (.dict pairs))) :
    (s.NamesFields pairs → ∀ k others, pairs.Perm others → s.object? k = some (.value (.dict others)) →
      p.outcome k s = p.outcome h s) ∧
    (¬ s.NamesFields pairs →
      (¬ p.DeepFirst s pairs → p.outcome h s = .ok (.foreign (.inr h))) ∧
      (p.DeepFirst s pairs → p.outcome h s = .error (.tooDeep p.maxDepth)) ∧
      ((∀ others, pairs.Perm others → ¬ p.DeepFirst s others) ↔
        ∀ kv ∈ pairs, s.keyText? kv.1 ≠ none → ¬ p.TooDeep s kv.2)) := by
  have outcome := outcome_dictionary boxed enabled found
  have here : PairsRead (p.reading s p.maxDepth) s.keyText? [] pairs _ := pairsRead_readPairs pairs []
  have limit : ∀ k e, p.reading s p.maxDepth k = .error e → e = .tooDeep p.maxDepth := fun _ _ failed =>
    eq_tooDeep_of_reading boxed failed
  refine ⟨fun names k others same found' => ?_, fun other => ⟨fun unfailing => ?_, fun first => ?_, ?_⟩⟩
  · have record := here.ne_none (Store.names_iff.mpr names)
    have moved := readPairs_perm limit (Store.names_iff.mpr names) same
    rw [outcome, outcome_dictionary boxed enabled found', ← moved]
    generalize readPairs (p.reading s p.maxDepth) s.keyText? [] pairs = r at record ⊢
    rcases r with e | _ | fields
    · rfl
    · exact absurd rfl record
    · rfl
  · rw [outcome, here.eq_none (mt Store.names_iff.mp other) (mt (failsFirst_iff boxed).mp unfailing)]
  · obtain ⟨kv, -, e, failed, result⟩ := here.eq_error ((failsFirst_iff boxed).mpr first)
    rw [outcome, result, limit _ _ failed]
  · constructor
    · intro unfailing kv listed text deep
      -- A pair can be moved to the front, where no key is in the way yet.
      have alone : s.NamesFields [kv] := ⟨fun _ hkv => List.mem_singleton.mp hkv ▸ text, List.nodup_singleton _⟩
      exact unfailing (kv :: pairs.erase kv) (List.perm_cons_erase listed) ⟨[], kv, _, rfl, alone, deep⟩
    · rintro shallow others same ⟨before, kv, after, rfl, names, deep⟩
      have listed : kv ∈ pairs := same.mem_iff.mpr (List.mem_append_right _ List.mem_cons_self)
      exact shallow kv listed (names.texts kv (List.mem_append_right _ List.mem_cons_self)) deep

/-- Two dictionaries with the same pairs: the text `a` with a list, and a number with itself. The first one begins with the
list, the second one with the number. -/
def listAndNumber : Store :=
  let s := ((Store.ofVersion (.ofNumbers 1 0 0)).construct (.int 1)).2
  let s := (s.construct (.array [⟨2⟩])).2
  let s := (s.construct (.str "a")).2
  let s := (s.construct (.dict [(⟨4⟩, ⟨3⟩), (⟨2⟩, ⟨2⟩)])).2
  (s.construct (.dict [(⟨2⟩, ⟨2⟩), (⟨4⟩, ⟨3⟩)])).2

/-- If lists nest too deep in dictionaries, the first fails and the second comes back. -/
theorem dictionaries_convert_listAndNumber :
    let p : ConversionPolicy := { ConversionPolicy.full with maxDepth := 1 }
    (∀ c ∈ listAndNumber.boxed, c.index < listAndNumber.cells.size) ∧ p.allows .record = true ∧
      p.outcome ⟨5⟩ listAndNumber = .error (.tooDeep 1) ∧ p.outcome ⟨6⟩ listAndNumber = .ok (.foreign (.inr ⟨6⟩)) := by
  intro p
  have boxed : ∀ c ∈ listAndNumber.boxed, c.index < listAndNumber.cells.size := by decide +kernel
  have enabled : p.allows .record = true := by decide
  have other : ¬ listAndNumber.NamesFields [(⟨4⟩, ⟨3⟩), (⟨2⟩, ⟨2⟩)] := fun names =>
    names.texts (⟨2⟩, ⟨2⟩) (by decide) (by decide +kernel)
  have other' : ¬ listAndNumber.NamesFields [(⟨2⟩, ⟨2⟩), (⟨4⟩, ⟨3⟩)] := fun names =>
    names.texts (⟨2⟩, ⟨2⟩) (by decide) (by decide +kernel)
  have deep : p.DeepFirst listAndNumber [(⟨4⟩, ⟨3⟩), (⟨2⟩, ⟨2⟩)] :=
    ⟨[], _, _, rfl, ⟨by decide +kernel, by decide +kernel⟩, by unfold TooDeep; cbv⟩
  have shallow : ¬ p.DeepFirst listAndNumber [(⟨2⟩, ⟨2⟩), (⟨4⟩, ⟨3⟩)] := by
    intro first
    obtain ⟨name, named, -⟩ := ((failsFirst_iff boxed).mpr first).head
    have number : listAndNumber.keyText? ⟨2⟩ = none := by decide +kernel
    cases number.symm.trans named
  have first := (dictionaries_convert p listAndNumber boxed enabled ⟨5⟩ _ rfl).2 other
  have second := (dictionaries_convert p listAndNumber boxed enabled ⟨6⟩ _ rfl).2 other'
  exact ⟨boxed, enabled, first.2.1 deep, second.1 shallow⟩

/-- The same pairs in two orders lead to a failure and to a foreign object. -/
theorem order_of_pairs_decides :
    let p : ConversionPolicy := { ConversionPolicy.full with maxDepth := 1 }
    [((⟨4⟩, ⟨3⟩) : Handle × Handle), (⟨2⟩, ⟨2⟩)].Perm [(⟨2⟩, ⟨2⟩), (⟨4⟩, ⟨3⟩)] ∧
      listAndNumber.object? ⟨5⟩ = some (.value (.dict [(⟨4⟩, ⟨3⟩), (⟨2⟩, ⟨2⟩)])) ∧
      listAndNumber.object? ⟨6⟩ = some (.value (.dict [(⟨2⟩, ⟨2⟩), (⟨4⟩, ⟨3⟩)])) ∧
      (p.fromForeign ⟨5⟩ listAndNumber).1 = .error (.tooDeep 1) ∧
      (p.fromForeign ⟨6⟩ listAndNumber).1 = .ok (.foreign ⟨0⟩) ∧
      (p.fromForeign ⟨6⟩ listAndNumber).2.read ⟨0⟩ = ⟨6⟩ := by
  refine ⟨.swap .., rfl, rfl, ?_, ?_, ?_⟩ <;> cbv

end ConversionPolicy

end ForeignBridge
