import ForeignBridge.Store

/-! # Collection

A collection empties every slot that cannot be reached from the main namespace, the pending exception, the families and
applied types in the tables, and the slots with roots.

* `anchors` lists where reaching begins, `Object.handles` how it goes on;
* `markFrom` marks what is reached; each step either marks a slot that was not marked or shortens the list of
  work;
* `collect` empties the rest. The cells held by the reclaimed objects are released afterwards, so their roots are
  given back to the slots that stay. -/

namespace ForeignBridge

namespace Store

/-- The slots that an allocated handle refers to. -/
def successors (s : Store) (h : Handle) : List Handle := ((s.object? h).map Object.handles).getD []

/-- The handles in the tables. -/
def entries (s : Store) : List Handle := s.families.values ++ s.applied.map Prod.snd

/-- The handles from which every live slot must be reachable. -/
def anchors (s : Store) : List Handle :=
  mainModule :: (s.fault.toList ++ s.entries ++
    (s.liveSlots.filter fun (_, slot) => 0 < slot.roots).map Prod.fst)

/-- Marks everything reachable from a list of handles. A mark stands at the position of its handle; handles beyond
the marks are left alone. -/
def markFrom (next : Handle → List Handle) (marks : Array Bool) (work : List Handle) : Array Bool :=
  match work with
  | [] => marks
  | h :: rest =>
    if unmarked : ∃ inside : h.raw < marks.size, marks[h.raw] = false then
      markFrom next (marks.set h.raw true unmarked.1) (next h ++ rest)
    else markFrom next marks rest
termination_by (marks.count false, work.length)
decreasing_by
  · obtain ⟨inside, fresh⟩ := unmarked
    have : 0 < marks.count false := by
      rw [Array.count_pos_iff]
      exact fresh ▸ Array.getElem_mem inside
    apply Prod.Lex.left
    rw [Array.count_set, fresh, if_pos (by decide), if_neg (by decide)]
    omega
  · apply Prod.Lex.right
    simp

/-- The marks of all reachable slots; null counts as marked. -/
def marks (s : Store) : Array Bool :=
  markFrom s.successors ((Array.replicate (s.lastId + 1) false).set 0 true (by simp)) s.anchors

/-- The slot of `h` can be reached. -/
def isMarked (marks : Array Bool) (h : Handle) : Bool := marks.getD h.raw false

/-- The live slots that cannot be reached. -/
def garbage (s : Store) : List (Handle × Slot) :=
  let marks := s.marks
  s.liveSlots.filter fun (h, _) => !isMarked marks h

/-- The store with the slot of `h` emptied; the cells it holds are not released. -/
def empty (s : Store) (h : Handle) : Store :=
  { s with slots := s.slots.modify (h.raw - 1) fun _ => none, bounded := by simpa using s.bounded }

/-- Reclaims everything that cannot be reached, and tells how many slots that were. -/
def collect (s : Store) : Nat × Store :=
  let dead := s.garbage
  let s := dead.foldl (fun s (h, _) => s.empty h) s
  (dead.length, dead.foldl (fun s (_, slot) => s.releaseAll slot.object.cells) s)

end Store

end ForeignBridge
