/-! # Association lists

A table under keys of any kind is a list of entries. The entry of a key is the first one; a table that is built by
`insert` has one for each key. -/

namespace ForeignBridge

/-- A table as the list of its entries. -/
abbrev Assoc (κ α : Type) := List (κ × α)

namespace Assoc

variable {κ α : Type} [BEq κ]

/-- Puts `value` under `key`, in the place of what was there. -/
def insert (key : κ) (value : α) : Assoc κ α → Assoc κ α
  | [] => [(key, value)]
  | (k, v) :: rest => if k == key then (key, value) :: rest else (k, v) :: insert key value rest

variable [LawfulBEq κ]

theorem lookup_insert (key other : κ) (value : α) (table : Assoc κ α) :
    (insert key value table).lookup other = if other == key then some value else table.lookup other := by
  induction table with
  | nil => cases h : other == key <;> simp [insert, List.lookup_cons, h]
  | cons entry rest ih =>
    obtain ⟨k, v⟩ := entry
    unfold insert
    split
    · next same =>
      obtain rfl := eq_of_beq same
      cases h : other == k <;> simp [List.lookup_cons, h]
    · next apart =>
      rw [List.lookup_cons, List.lookup_cons, ih]
      cases h : other == k with
      | false => rfl
      | true =>
        obtain rfl := eq_of_beq h
        simp [apart]

end Assoc

end ForeignBridge
