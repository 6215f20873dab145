/-! # Ascending lists

A finite set is kept as the ascending list of its members, so that equal sets are equal lists. -/

namespace ForeignBridge

namespace Ascending

variable {α : Type} [DecidableEq α] [LT α] [DecidableLT α]

/-- Adds `x` to an ascending list that may already hold it. -/
def insert (x : α) : List α → List α
  | [] => [x]
  | y :: rest =>
    if x = y then y :: rest
    else if x < y then x :: y :: rest
    else y :: insert x rest

/-- The members of a list in ascending order, each once. -/
def ofList (members : List α) : List α := members.foldr insert []

theorem mem_insert {x y : α} {l : List α} : y ∈ insert x l ↔ y = x ∨ y ∈ l := by
  induction l with
  | nil => simp [insert]
  | cons z rest ih =>
    unfold insert
    split
    · next h => simp [h]
    · split
      · simp
      · simp only [List.mem_cons, ih]
        constructor
        · rintro (h | h | h) <;> simp [h]
        · rintro (h | h | h) <;> simp [h]

/-- Ordering a list keeps its members. -/
theorem mem_ofList {y : α} {l : List α} : y ∈ ofList l ↔ y ∈ l := by
  induction l with
  | nil => simp [ofList]
  | cons x rest ih =>
    show y ∈ insert x (ofList rest) ↔ _
    rw [mem_insert, ih, List.mem_cons]

end Ascending

end ForeignBridge
