/-! # Keyed tables

A table under string keys is the list of its entries, ascending by key, each key once. The order is that of
code points, which is also the order of the UTF-8 bytes. -/

namespace ForeignBridge

/-- Entries ascending by key, each key once. -/
abbrev Keyed (α : Type) := List (String × α)

namespace Keyed

variable {α β : Type}

/-- Puts `value` under `key`, replacing what was there. -/
def insert (key : String) (value : α) : Keyed α → Keyed α
  | [] => [(key, value)]
  | (k, v) :: rest =>
    if key = k then (key, value) :: rest
    else if key < k then (key, value) :: (k, v) :: rest
    else (k, v) :: insert key value rest

/-- The value under `key`. -/
def get? (key : String) : Keyed α → Option α
  | [] => none
  | (k, v) :: rest => if key = k then some v else get? key rest

/-- There is a value under `key`. -/
def has (key : String) (table : Keyed α) : Bool := (get? key table).isSome

/-- The table without the entry under `key`. -/
def erase (key : String) : Keyed α → Keyed α
  | [] => []
  | (k, v) :: rest => if key = k then rest else (k, v) :: erase key rest

/-- The table of a list of entries; of two entries under one key the later counts. -/
def ofList (entries : List (String × α)) : Keyed α :=
  entries.foldl (fun table e => insert e.1 e.2 table) []

/-- The keys in ascending order. -/
def keys (table : Keyed α) : List String := table.map Prod.fst

/-- The values in the order of their keys. -/
def values (table : Keyed α) : List α := table.map Prod.snd

@[simp] theorem get?_insert (key other : String) (value : α) (table : Keyed α) :
    get? other (insert key value table) = if other = key then some value else get? other table := by
  induction table with
  | nil => simp [insert, get?]
  | cons e rest ih =>
    obtain ⟨k, v⟩ := e
    unfold insert
    split
    · next h => subst h; simp only [get?]; split <;> rfl
    · split
      · simp only [get?]
      · next hk _ =>
        simp only [get?, ih]
        split
        · next h => subst h; rw [if_neg (fun h => hk h.symm)]
        · rfl

end Keyed

end ForeignBridge
