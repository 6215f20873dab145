import ForeignBridge.Proofs.Operations

/-! # What comes of a description

A description goes from slot to slot and remembers neither how deep it is nor where it has been. `Describes` is this
recursion without a bound: a derivation is a description that has come to an end, and one that goes in a circle has
none. A slot has at most one description (`Describes.unique`).

The store computes descriptions with a bound on the depth. A deeper bound lets more slots be described and changes none
of the descriptions (`describeWithin_mono`). When one more level describes no further slot, none does; so after as many
levels as there are slots, everything is described that ever will be. The bound of `description` is that deep, and it
gives a text exactly if the description comes to an end, namely that one (`describes_iff`). -/

namespace ForeignBridge

namespace Store

variable {s : Store} {h k : Handle} {object : Object} {text text' : Option String} {depth depth' : ℕ}
  {f g : Handle → Option (Option String)}

/-- The description of a slot comes to an end, with the readable form of the slot if it has one. The descriptions of
other slots that it needs are among the `answers`. -/
inductive Describes (s : Store) : Handle → Option String → Prop where
  | missing {h : Handle} (gone : s.object? h = none) : Describes s h none
  | found {h : Handle} {object : Object} {text : Option String} (found : s.object? h = some object)
      (answers : Handle → Option (Option String)) (sound : ∀ k text, answers k = some text → Describes s k text)
      (ended : s.describeObject answers object = some text) : Describes s h text

/-! ### More answers -/

theorem mapM_mono : ∀ {items : List Handle} {texts : List (Option String)},
    (∀ k ∈ items, ∀ text, f k = some text → g k = some text) → items.mapM f = some texts → items.mapM g = some texts
  | [], _, _, all => all
  | k :: items, texts, more, all => by
    rw [List.mapM_cons] at all ⊢
    obtain ⟨text, first, rest⟩ := Option.bind_eq_some_iff.mp all
    obtain ⟨others, rest, same⟩ := Option.bind_eq_some_iff.mp rest
    have rest' := mapM_mono (fun j hj => more j (List.mem_cons_of_mem _ hj)) rest
    exact Option.bind_eq_some_iff.mpr ⟨text, more k List.mem_cons_self text first,
      Option.bind_eq_some_iff.mpr ⟨others, rest', same⟩⟩

/-- With more answers, a description that has come to an end is the same. Only the slots that the object refers to
matter. -/
theorem describeObject_mono (more : ∀ k ∈ object.handles, ∀ text, f k = some text → g k = some text)
    (ended : s.describeObject f object = some text) : s.describeObject g object = some text := by
  cases object with
  | value data =>
    cases data with
    | array items =>
      obtain ⟨parts, all, same⟩ := Option.bind_eq_some_iff.mp ended
      exact Option.bind_eq_some_iff.mpr ⟨parts, mapM_mono more all, same⟩
    | _ => exact ended
  | type head params =>
    obtain ⟨name, first, rest⟩ := Option.bind_eq_some_iff.mp ended
    refine Option.bind_eq_some_iff.mpr ⟨name, more head List.mem_cons_self name first, ?_⟩
    cases name with
    | none => exact rest
    | some name =>
      dsimp only at rest ⊢
      split at rest
      · next none => rwa [if_pos none]
      · next some =>
        rw [if_neg some]
        obtain ⟨parts, all, same⟩ := Option.bind_eq_some_iff.mp rest
        have all' := mapM_mono (fun k hk => more k (List.mem_cons_of_mem _ hk)) all
        exact Option.bind_eq_some_iff.mpr ⟨parts, all', same⟩
  | structured head fields =>
    obtain ⟨name, first, same⟩ := Option.bind_eq_some_iff.mp ended
    exact Option.bind_eq_some_iff.mpr ⟨name, more head List.mem_cons_self name first, same⟩
  | module | function | family => exact ended

/-- **A slot has one description.** -/
theorem Describes.unique (described : s.Describes h text) : s.Describes h text' → text = text' := by
  induction described generalizing text' with
  | missing gone =>
    rintro (_ | ⟨found, _, _⟩)
    · rfl
    · rw [gone] at found
      cases found
  | @found h object text found f sound ended ih =>
    rintro (gone | ⟨found', g, sound', ended'⟩)
    · rw [found] at gone
      cases gone
    · obtain rfl := Option.some.inj (found.symm.trans found')
      -- The answers of both derivations are put together; where both answer, they answer the same.
      let both : Handle → Option (Option String) := fun k => (f k).or (g k)
      have left : ∀ k text, f k = some text → both k = some text := fun k text there => by simp [both, there]
      have right : ∀ k text, g k = some text → both k = some text := fun k text there => by
        cases first : f k with
        | none => simp [both, first, there]
        | some text' =>
          obtain rfl := ih k text' first (sound' k text there)
          exact left k text' first
      have ended₁ := describeObject_mono (fun k _ => left k) ended
      have ended₂ := describeObject_mono (fun k _ => right k) ended'
      exact Option.some.inj (ended₁.symm.trans ended₂)

/-! ### More levels -/

theorem describeWithin_of_none (gone : s.object? h = none) : s.describeWithin (depth + 1) h = some none := by
  rw [describeWithin, gone]

theorem describeWithin_of_some (found : s.object? h = some object) :
    s.describeWithin (depth + 1) h = s.describeObject (s.describeWithin depth) object := by
  rw [describeWithin, found]

theorem describeWithin_succ (ended : s.describeWithin depth h = some text) :
    s.describeWithin (depth + 1) h = some text := by
  induction depth generalizing h text with
  | zero => cases ended
  | succ depth ih =>
    cases found : s.object? h with
    | none =>
      rw [describeWithin_of_none found] at ended ⊢
      exact ended
    | some object =>
      rw [describeWithin_of_some found] at ended ⊢
      exact describeObject_mono (fun k _ text => ih) ended

/-- A deeper bound changes no description. -/
theorem describeWithin_mono (deeper : depth ≤ depth') (ended : s.describeWithin depth h = some text) :
    s.describeWithin depth' h = some text := by
  induction deeper with
  | refl => exact ended
  | step _ ih => exact describeWithin_succ ih

theorem describes_of_describeWithin (ended : s.describeWithin depth h = some text) : s.Describes h text := by
  induction depth generalizing h text with
  | zero => cases ended
  | succ depth ih =>
    cases found : s.object? h with
    | none =>
      rw [describeWithin_of_none found] at ended
      obtain rfl := Option.some.inj ended
      exact .missing found
    | some object =>
      rw [describeWithin_of_some found] at ended
      exact .found found (s.describeWithin depth) (fun k text => ih) ended

/-- Finitely many descriptions have a common bound. -/
theorem exists_common_depth (all : ∀ k text, f k = some text → ∃ depth, s.describeWithin depth k = some text) :
    ∀ handles : List Handle, ∃ depth, ∀ k ∈ handles, ∀ text, f k = some text → s.describeWithin depth k = some text
  | [] => ⟨0, fun _ hk => by cases hk⟩
  | k :: handles => by
    obtain ⟨depth, enough⟩ := exists_common_depth all handles
    obtain ⟨own, enough'⟩ : ∃ own, ∀ text, f k = some text → s.describeWithin own k = some text := by
      cases answered : f k with
      | none => exact ⟨0, fun _ there => by cases there⟩
      | some text =>
        obtain ⟨own, ended⟩ := all k text answered
        exact ⟨own, fun _ same => Option.some.inj same ▸ ended⟩
    refine ⟨max depth own, fun j hj text there => ?_⟩
    rcases List.mem_cons.mp hj with rfl | hj
    · exact describeWithin_mono (Nat.le_max_right ..) (enough' text there)
    · exact describeWithin_mono (Nat.le_max_left ..) (enough j hj text there)

theorem Describes.exists_depth (described : s.Describes h text) : ∃ depth, s.describeWithin depth h = some text := by
  induction described with
  | missing gone => exact ⟨1, describeWithin_of_none gone⟩
  | @found h object text found answers _ ended ih =>
    -- the object refers to finitely many slots, so one bound is enough for all of them
    obtain ⟨depth, enough⟩ := exists_common_depth ih object.handles
    exact ⟨depth + 1, (describeWithin_of_some found).trans (describeObject_mono enough ended)⟩

/-! ### Enough levels -/

/-- The positions of the slots that are described within a bound. -/
def describedWithin (s : Store) (depth : ℕ) : Finset ℕ :=
  (Finset.range s.slots.size).filter fun i => (s.describeWithin (depth + 1) ⟨i + 1⟩).isSome

theorem mem_describedWithin_of_live (found : s.object? h = some object) :
    h.raw - 1 ∈ s.describedWithin depth ↔ ∃ text, s.describeWithin (depth + 1) h = some text := by
  obtain ⟨slot, live, _⟩ := object?_eq_some.mp found
  obtain ⟨_ | i⟩ := h
  · cases live
  · have inside : i < s.slots.size :=
      (Array.getElem?_eq_some_iff.mp (Option.join_eq_some_iff.mp live)).1
    simp [describedWithin, inside, Option.isSome_iff_exists]

theorem describedWithin_subset (depth : ℕ) : s.describedWithin depth ⊆ s.describedWithin (depth + 1) := by
  intro i hi
  obtain ⟨inside, some⟩ := Finset.mem_filter.mp hi
  obtain ⟨text, ended⟩ := Option.isSome_iff_exists.mp some
  exact Finset.mem_filter.mpr ⟨inside, Option.isSome_iff_exists.mpr ⟨text, describeWithin_succ ended⟩⟩

/-- If one more level describes no further slot, it describes every handle in the same way. -/
theorem describeWithin_eq_of_describedWithin_eq (same : s.describedWithin depth = s.describedWithin (depth + 1)) :
    s.describeWithin (depth + 1) = s.describeWithin (depth + 2) := by
  funext h
  cases found : s.object? h with
  | none => rw [describeWithin_of_none found, describeWithin_of_none found]
  | some object =>
    cases ended : s.describeWithin (depth + 2) h with
    | none =>
      by_contra some
      obtain ⟨text, ended'⟩ := Option.ne_none_iff_exists'.mp some
      rw [describeWithin_succ ended'] at ended
      cases ended
    | some text =>
      have inside : h.raw - 1 ∈ s.describedWithin (depth + 1) :=
        (mem_describedWithin_of_live found).mpr ⟨text, ended⟩
      obtain ⟨text', ended'⟩ := (mem_describedWithin_of_live found).mp (same ▸ inside)
      rw [ended', ← ended, describeWithin_succ ended']

theorem describedWithin_stable (same : s.describedWithin depth = s.describedWithin (depth + 1)) :
    s.describedWithin (depth + 1) = s.describedWithin (depth + 2) := by
  have levels := describeWithin_eq_of_describedWithin_eq same
  have further : s.describeWithin (depth + 2) = s.describeWithin (depth + 3) := by
    funext h
    rw [describeWithin, levels]
    rfl
  unfold describedWithin
  rw [further]

/-- As many levels as there are slots are enough for everything. -/
theorem describedWithin_eq (enough : s.slots.size ≤ depth) :
    s.describedWithin depth = s.describedWithin s.slots.size := by
  have mono : Monotone s.describedWithin := monotone_nat_of_le_succ describedWithin_subset
  have count : (s.describedWithin depth).card = (s.describedWithin s.slots.size).card := by
    apply Nat.stabilises_of_monotone (f := fun depth => (s.describedWithin depth).card) _ _ _ enough
    · exact fun _ _ le => Finset.card_le_card (mono le)
    · intro depth
      exact (Finset.card_filter_le ..).trans (Finset.card_range _).le
    · intro depth same
      rw [describedWithin_stable (Finset.eq_of_subset_of_card_le (describedWithin_subset depth) same.ge)]
  exact (Finset.eq_of_subset_of_card_le (mono enough) count.le).symm

theorem description_of_describeWithin (ended : s.describeWithin depth h = some text) :
    s.description h = some text := by
  have deeper : s.describeWithin (max depth s.slots.size + 1) h = some text := describeWithin_mono (by omega) ended
  cases found : s.object? h with
  | none =>
    rw [describeWithin_of_none found] at deeper
    rw [description, describeWithin_of_none found, deeper]
  | some object =>
    have inside := (mem_describedWithin_of_live found).mpr ⟨text, deeper⟩
    rw [describedWithin_eq (Nat.le_max_right ..)] at inside
    obtain ⟨text', ended'⟩ := (mem_describedWithin_of_live found).mp inside
    rw [description, ended', ← deeper, describeWithin_mono (by omega) ended']

/-- **What the store gives is the description, if it comes to an end.** -/
theorem describes_iff : s.Describes h text ↔ s.description h = some text := by
  constructor
  · intro described
    obtain ⟨depth, ended⟩ := described.exists_depth
    exact description_of_describeWithin ended
  · exact describes_of_describeWithin

/-! ### Circles -/

theorem mem_of_mapM_eq_some : ∀ {items : List Handle} {texts : List (Option String)}, items.mapM f = some texts →
    k ∈ items → ∃ text, f k = some text
  | j :: items, texts, all, inside => by
    rw [List.mapM_cons] at all
    obtain ⟨text, first, rest⟩ := Option.bind_eq_some_iff.mp all
    obtain ⟨others, rest, _⟩ := Option.bind_eq_some_iff.mp rest
    rcases List.mem_cons.mp inside with rfl | inside
    · exact ⟨text, first⟩
    · exact mem_of_mapM_eq_some rest inside

/-- The description of an array that is among its own items never ends. -/
theorem Describes.not_mem_items (described : s.Describes h text) :
    ∀ items, s.object? h = some (.value (.array items)) → h ∉ items := by
  induction described with
  | missing gone =>
    intro items found
    rw [gone] at found
    cases found
  | found found answers _ ended ih =>
    intro items found' inside
    obtain rfl := Option.some.inj (found.symm.trans found')
    obtain ⟨parts, all, _⟩ := Option.bind_eq_some_iff.mp ended
    obtain ⟨text, answered⟩ := mem_of_mapM_eq_some all inside
    exact ih _ text answered items found' inside

/-- A handle that was not returned yet can be that of the slot that is made with it: an array of it holds itself, and
its description never ends. -/
theorem not_describes_of_guessed (s : Store) (text : Option String) :
    ¬ (s.construct (.array [s.nextHandle])).2.Describes s.nextHandle text := by
  intro described
  have found : (s.construct (.array [s.nextHandle])).2.object? s.nextHandle = some (.value (.array [s.nextHandle])) := by
    rw [construct, Ledger.object?_allocate, if_pos rfl]
  exact described.not_mem_items _ found List.mem_cons_self

end Store

end ForeignBridge
