import Mathlib
import ForeignBridge.Assoc
import ForeignBridge.Keyed

/-! # What tables hold

A keyed table that is built by `insert` ascends by key. Then there is one entry under a key, and what `insert` displaces is
what `get?` finds. So the members of a table are accounted for, up to their order, by what is put in and what is
displaced. A table of entries under distinct keys holds just these (`perm_ofList`). An association list keeps the order in
which its keys came instead. -/

namespace ForeignBridge

namespace Keyed

variable {α β : Type}

/-- The keys ascend. -/
def Ascends (table : Keyed α) : Prop := (table.map Prod.fst).Pairwise (· < ·)

/-- What the values of a table hold, one after the other. -/
def contents (f : α → List β) (table : Keyed α) : List β := table.flatMap fun e => f e.2

/-- What the value under a key holds: nothing if there is none. -/
def contentsAt (f : α → List β) (key : String) (table : Keyed α) : List β := ((get? key table).map f).getD []

theorem ascends_nil : Ascends ([] : Keyed α) := List.Pairwise.nil

theorem ascends_cons {k : String} {v : α} {rest : Keyed α} :
    Ascends ((k, v) :: rest) ↔ (∀ e ∈ rest, k < e.1) ∧ Ascends rest := by
  simp [Ascends, List.pairwise_cons]

theorem mem_insert {key : String} {value : α} {table : Keyed α} {e : String × α}
    (he : e ∈ insert key value table) : e = (key, value) ∨ e ∈ table := by
  induction table with
  | nil => exact .inl (by simpa [insert] using he)
  | cons x rest ih =>
    obtain ⟨k, v⟩ := x
    unfold insert at he
    split at he
    · exact (List.mem_cons.mp he).imp_right (List.mem_cons_of_mem _)
    · split at he
      · exact List.mem_cons.mp he
      · rcases List.mem_cons.mp he with rfl | he
        · exact .inr List.mem_cons_self
        · exact (ih he).imp_right (List.mem_cons_of_mem _)

theorem mem_values_insert {key : String} {value x : α} {table : Keyed α}
    (hx : x ∈ (insert key value table).map Prod.snd) : x = value ∨ x ∈ table.map Prod.snd := by
  obtain ⟨e, he, rfl⟩ := List.mem_map.mp hx
  rcases mem_insert he with rfl | old
  · exact .inl rfl
  · exact .inr (List.mem_map_of_mem old)

theorem Ascends.insert {table : Keyed α} (ascends : Ascends table) (key : String) (value : α) :
    Ascends (Keyed.insert key value table) := by
  induction table with
  | nil => simp [Ascends, Keyed.insert]
  | cons x rest ih =>
    obtain ⟨k, v⟩ := x
    obtain ⟨least, later⟩ := ascends_cons.mp ascends
    unfold Keyed.insert
    split
    · next same => exact ascends_cons.mpr ⟨fun e he => same ▸ least e he, later⟩
    · next apart =>
      split
      · next below =>
        refine ascends_cons.mpr ⟨fun e he => ?_, ascends⟩
        rcases List.mem_cons.mp he with rfl | he
        · exact below
        · exact below.trans (least e he)
      · next above =>
        refine ascends_cons.mpr ⟨fun e he => ?_, ih later⟩
        rcases mem_insert he with rfl | he
        · exact lt_of_le_of_ne (not_lt.mp above) (Ne.symm apart)
        · exact least e he

theorem mem_erase {key : String} {table : Keyed α} {e : String × α} (he : e ∈ erase key table) : e ∈ table := by
  induction table with
  | nil => cases he
  | cons x rest ih =>
    obtain ⟨k, v⟩ := x
    unfold erase at he
    split at he
    · exact List.mem_cons_of_mem _ he
    · rcases List.mem_cons.mp he with rfl | he
      · exact List.mem_cons_self
      · exact List.mem_cons_of_mem _ (ih he)

theorem Ascends.erase {table : Keyed α} (ascends : Ascends table) (key : String) : Ascends (Keyed.erase key table) := by
  induction table with
  | nil => exact ascends
  | cons x rest ih =>
    obtain ⟨k, v⟩ := x
    obtain ⟨least, later⟩ := ascends_cons.mp ascends
    unfold Keyed.erase
    split
    · exact later
    · exact ascends_cons.mpr ⟨fun e he => least e (mem_erase he), ih later⟩

theorem mem_of_get? {key : String} {table : Keyed α} {value : α} (found : get? key table = some value) :
    (key, value) ∈ table := by
  induction table with
  | nil => cases found
  | cons x rest ih =>
    obtain ⟨k, v⟩ := x
    unfold get? at found
    split at found
    · next same =>
      obtain rfl := Option.some.inj found
      exact same ▸ List.mem_cons_self
    · exact List.mem_cons_of_mem _ (ih found)

theorem get?_eq_none {key : String} {table : Keyed α} (absent : ∀ e ∈ table, key ≠ e.1) : get? key table = none := by
  induction table with
  | nil => rfl
  | cons x rest ih =>
    obtain ⟨k, v⟩ := x
    unfold get?
    rw [if_neg (absent _ List.mem_cons_self)]
    exact ih fun e he => absent e (List.mem_cons_of_mem _ he)

theorem get?_eq_some_iff {table : Keyed α} (ascends : Ascends table) {key : String} {value : α} :
    get? key table = some value ↔ (key, value) ∈ table := by
  refine ⟨mem_of_get?, fun held => ?_⟩
  induction table with
  | nil => cases held
  | cons e rest ih =>
    obtain ⟨k, v⟩ := e
    obtain ⟨least, later⟩ := ascends_cons.mp ascends
    unfold get?
    rcases List.mem_cons.mp held with same | held
    · obtain ⟨rfl, rfl⟩ := Prod.mk.inj same
      exact if_pos rfl
    · rw [if_neg (least _ held).ne']
      exact ih later held

theorem has_of_lt {key : String} {table : Keyed α} (below : ∀ e ∈ table, e.1 < key) : has key table = false := by
  rw [has, get?_eq_none fun e he => (below e he).ne']
  rfl

/-- What is put under a key that is greater than all others goes to the end. -/
theorem insert_of_lt {key : String} {value : α} {table : Keyed α} (below : ∀ e ∈ table, e.1 < key) :
    insert key value table = table ++ [(key, value)] := by
  induction table with
  | nil => rfl
  | cons x rest ih =>
    obtain ⟨k, v⟩ := x
    have least : k < key := below _ List.mem_cons_self
    unfold insert
    rw [if_neg least.ne', if_neg (not_lt.mpr least.le), ih fun e he => below e (List.mem_cons_of_mem _ he)]
    rfl

theorem lt_of_ascends_append {key : String} {value : α} {before rest : Keyed α}
    (ascends : Ascends (before ++ (key, value) :: rest)) : ∀ e ∈ before, e.1 < key := by
  intro e he
  unfold Ascends at ascends
  rw [List.map_append, List.pairwise_append] at ascends
  exact ascends.2.2 e.1 (List.mem_map_of_mem he) key List.mem_cons_self

/-- What is put in and what was there are what is there now and what was displaced. -/
theorem perm_contents_insert (f : α → List β) {table : Keyed α} (ascends : Ascends table) (key : String) (value : α) :
    (contentsAt f key table ++ contents f (insert key value table)).Perm (f value ++ contents f table) := by
  induction table with
  | nil => exact .refl _
  | cons x rest ih =>
    obtain ⟨k, v⟩ := x
    obtain ⟨least, later⟩ := ascends_cons.mp ascends
    unfold contentsAt get? insert
    split
    · exact List.perm_append_comm_assoc _ _ _
    · next apart =>
      split
      · next below =>
        have absent : get? key rest = none := get?_eq_none fun e he => (below.trans (least e he)).ne
        rw [absent]
        exact .refl _
      · have step := (ih later).append_left (f v)
        exact (List.perm_append_comm_assoc _ _ _).trans (step.trans (List.perm_append_comm_assoc _ _ _))

/-- What was there is what is there now and what was taken out. -/
theorem perm_contents_erase (f : α → List β) (key : String) (table : Keyed α) :
    (contentsAt f key table ++ contents f (erase key table)).Perm (contents f table) := by
  induction table with
  | nil => exact .refl _
  | cons x rest ih =>
    obtain ⟨k, v⟩ := x
    unfold contentsAt get? erase
    split
    · exact .refl _
    · exact (List.perm_append_comm_assoc _ _ _).trans (ih.append_left (f v))

/-! ### Tables of entries -/

theorem ofList_append (entries : List (String × α)) (e : String × α) :
    ofList (entries ++ [e]) = insert e.1 e.2 (ofList entries) := by
  simp [ofList]

theorem ascends_ofList (entries : List (String × α)) : Ascends (ofList entries) := by
  induction entries using List.reverseRecOn with
  | nil => exact ascends_nil
  | append_singleton entries e ih =>
    rw [ofList_append]
    exact ih.insert _ _

theorem perm_insert {key : String} {value : α} {table : Keyed α} (absent : ∀ e ∈ table, key ≠ e.1) :
    (insert key value table).Perm ((key, value) :: table) := by
  induction table with
  | nil => exact .refl _
  | cons e rest ih =>
    obtain ⟨k, v⟩ := e
    unfold insert
    rw [if_neg (absent _ List.mem_cons_self)]
    split
    · exact .refl _
    · exact ((ih fun e he => absent e (List.mem_cons_of_mem _ he)).cons _).trans (.swap _ _ _)

/-- The table of entries under distinct keys holds just these. -/
theorem perm_ofList {entries : List (String × α)} (distinct : (entries.map Prod.fst).Nodup) :
    (ofList entries).Perm entries := by
  induction entries using List.reverseRecOn with
  | nil => exact .refl _
  | append_singleton entries e ih =>
    rw [List.map_append, List.nodup_append] at distinct
    obtain ⟨before, -, apart⟩ := distinct
    have same := ih before
    rw [ofList_append]
    have absent : ∀ x ∈ ofList entries, e.1 ≠ x.1 := fun x hx =>
      (apart _ (List.mem_map_of_mem (same.mem_iff.mp hx)) _ (by simp)).symm
    exact (perm_insert absent).trans ((same.cons e).trans (List.perm_append_singleton e entries).symm)

theorem mem_of_mem_ofList {entries : List (String × α)} {e : String × α} (held : e ∈ ofList entries) :
    e ∈ entries := by
  induction entries using List.reverseRecOn with
  | nil => cases held
  | append_singleton entries last ih =>
    rw [ofList_append] at held
    rcases mem_insert held with rfl | old
    · exact List.mem_append_right _ List.mem_cons_self
    · exact List.mem_append_left _ (ih old)

/-- What is found in the table of a list of entries is one of them. -/
theorem mem_of_get?_ofList {entries : List (String × α)} {key : String} {value : α}
    (found : get? key (ofList entries) = some value) : (key, value) ∈ entries :=
  mem_of_mem_ofList (mem_of_get? found)

/-- Entries under distinct keys are all found. -/
theorem get?_ofList_eq_some_iff {entries : List (String × α)} (distinct : (entries.map Prod.fst).Nodup) {key : String}
    {value : α} : get? key (ofList entries) = some value ↔ (key, value) ∈ entries := by
  rw [get?_eq_some_iff (ascends_ofList entries), (perm_ofList distinct).mem_iff]

end Keyed

namespace Assoc

variable {κ α : Type} [BEq κ] {key : κ} {value : α} {table : Assoc κ α}

theorem mem_insert {e : κ × α} (he : e ∈ table.insert key value) : e = (key, value) ∨ e ∈ table := by
  induction table with
  | nil => exact .inl (List.mem_singleton.mp he)
  | cons x rest ih =>
    unfold insert at he
    split at he
    · exact (List.mem_cons.mp he).imp_right (List.mem_cons_of_mem _)
    · rcases List.mem_cons.mp he with rfl | he
      · exact .inr List.mem_cons_self
      · exact (ih he).imp_right (List.mem_cons_of_mem _)

theorem mem_values_insert {x : α} (hx : x ∈ (table.insert key value).map Prod.snd) :
    x = value ∨ x ∈ table.map Prod.snd := by
  obtain ⟨e, he, rfl⟩ := List.mem_map.mp hx
  exact (mem_insert he).imp (congrArg Prod.snd) List.mem_map_of_mem

variable [LawfulBEq κ]

theorem mem_of_lookup (found : table.lookup key = some value) : (key, value) ∈ table := by
  obtain ⟨before, after, rfl, -⟩ := List.lookup_eq_some_iff.mp found
  exact List.mem_append_right _ List.mem_cons_self

/-- What is displaced and what is there afterwards is what was there before and what is put in. -/
theorem perm_insert (key : κ) (value : α) (table : Assoc κ α) :
    ((table.lookup key).toList ++ (table.insert key value).map Prod.snd).Perm (value :: table.map Prod.snd) := by
  induction table with
  | nil => exact .refl _
  | cons e rest ih =>
    obtain ⟨k, v⟩ := e
    unfold insert
    split
    · next same =>
      obtain rfl := eq_of_beq same
      rw [List.lookup_cons_self]
      exact List.Perm.swap _ _ _
    · next apart =>
      have other : (key == k) = false := Bool.eq_false_iff.mpr fun same => apart (BEq.comm.trans same)
      rw [List.lookup_cons, other]
      have step := (ih.cons v).trans (List.Perm.swap _ _ _)
      exact List.perm_middle.trans step

/-- A key that is new comes last. -/
theorem keys_insert [DecidableEq κ] (key : κ) (value : α) (table : Assoc κ α) :
    (table.insert key value).map Prod.fst =
      if key ∈ table.map Prod.fst then table.map Prod.fst else table.map Prod.fst ++ [key] := by
  induction table with
  | nil => rfl
  | cons x rest ih =>
    obtain ⟨k, v⟩ := x
    unfold insert
    by_cases same : k = key
    · simp [same]
    · rw [if_neg (by simpa using same), List.map_cons, ih]
      by_cases later : key ∈ rest.map Prod.fst
      · simp only [later, if_true, List.map_cons, List.mem_cons, or_true]
      · simp only [later, if_false, List.map_cons, List.mem_cons, or_false, Ne.symm same, List.cons_append]

theorem nodup_keys_insert [DecidableEq κ] (distinct : (table.map Prod.fst).Nodup) (key : κ) (value : α) :
    ((table.insert key value).map Prod.fst).Nodup := by
  rw [keys_insert]
  split
  · exact distinct
  · next new => simpa using distinct.concat new

end Assoc

end ForeignBridge
