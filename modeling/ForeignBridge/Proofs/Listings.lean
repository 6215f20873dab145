import ForeignBridge.Proofs.Placements

/-! # Independence of listing

The order of registration does not depend on how the templates are listed. Two greedy orders in which the same families
are ready at the same time, with the same ranks, are equal: where both go on, each of the next families is the least
one that is ready (`Greedy.unique`). Which families are ready, and how they rank, is a matter of which templates are
listed and which families each of them requires (`ready_relisted`, `rank_relisted`).

Names are compared by code points, and this is the order of their UTF-8 bytes (`bytes_lt_bytes`): a lower character has
lower bytes, whatever follows the two (`encode_lt_encode`). -/

namespace ForeignBridge

/-! ### The order of bytes -/

namespace Text

/-- The UTF-8 bytes of a text. -/
def bytes (text : String) : List UInt8 := text.toUTF8.data.toList

theorem bytes_eq (text : String) : bytes text = text.toList.flatMap String.utf8EncodeChar := by
  conv_lhs => rw [bytes, ← String.ofList_toList (s := text), String.toUTF8_eq_toByteArray]
  exact List.toList_data_toByteArray

/-- A lower character has lower bytes. The bytes of a character are its digits to the base 64, and the first of them
tells how many there are. -/
theorem encode_lt_encode {c d : Char} (below : c < d) (a b : List UInt8) :
    String.utf8EncodeChar c ++ a < String.utf8EncodeChar d ++ b := by
  have lower : c.val.toNat < d.val.toNat := below
  have bound : d.val.toNat < 0x110000 := by
    have valid := d.valid
    unfold UInt32.isValidChar Nat.isValidChar at valid
    omega
  have digits : ∀ n : ℕ, n = 262144 * (n / 262144) + (4096 * (n / 4096 % 64) + (64 * (n / 64 % 64) + n % 64)) := by
    omega
  have digitsC := digits c.val.toNat
  have digitsD := digits d.val.toNat
  unfold String.utf8EncodeChar
  dsimp only
  split_ifs <;> simp (disch := omega) only [List.cons_append, List.nil_append, List.cons_lt_cons_iff,
    UInt8.lt_iff_toNat_lt, ← UInt8.toNat_inj, UInt8.toNat_ofNat', Nat.mod_eq_of_lt] <;> omega

theorem encode_lt_of_lt : ∀ {a b : List Char}, a < b →
    a.flatMap String.utf8EncodeChar < b.flatMap String.utf8EncodeChar
  | _, [], below => absurd below (List.not_lt_nil _)
  | [], d :: b, _ => by
      obtain ⟨x, rest, first⟩ := List.exists_cons_of_ne_nil (String.utf8EncodeChar_ne_nil (c := d))
      rw [List.flatMap_cons, first]
      exact List.nil_lt_cons _ _
  | c :: a, d :: b, below => by
      rw [List.flatMap_cons, List.flatMap_cons]
      rcases List.cons_lt_cons_iff.mp below with lower | ⟨rfl, later⟩
      · exact encode_lt_encode lower _ _
      · exact List.append_left_lt (encode_lt_of_lt later)

/-- Texts are in the order of their bytes. -/
theorem bytes_lt_bytes {s t : String} : bytes s < bytes t ↔ s < t := by
  have lower : ∀ {s t : String}, s < t → bytes s < bytes t := fun below => by
    rw [bytes_eq, bytes_eq]
    exact encode_lt_of_lt (String.lt_iff_toList_lt.mp below)
  refine ⟨fun below => ?_, lower⟩
  rcases lt_trichotomy s t with first | rfl | second
  · exact first
  · exact absurd below (List.lt_irrefl _)
  · exact absurd (lower second) (List.lt_asymm below)

end Text

namespace Template

/-- The template comes first of two that are ready: single types before others, then by the bytes of the names. -/
def Precedes (t u : Template) : Prop :=
  (t.isScalar = true ∧ u.isScalar = false) ∨ (t.isScalar = u.isScalar ∧ Text.bytes t.family < Text.bytes u.family)

/-- The template with another list of required families. -/
def withRequires (t : Template) (families : List String) : Template := { t with requires := families }

@[simp] theorem family_withRequires (t : Template) (families : List String) :
    (t.withRequires families).family = t.family := rfl

@[simp] theorem requires_withRequires (t : Template) (families : List String) :
    (t.withRequires families).requires = families := rfl

@[simp] theorem isScalar_withRequires (t : Template) (families : List String) :
    (t.withRequires families).isScalar = t.isScalar := rfl

end Template

namespace Placement

/-! ### The least of the templates that can be placed -/

/-- The template is not placed yet, but every family that it requires and that is among the templates is, itself
excepted. -/
def Placeable (templates : List Template) (placed : List String) (t : Template) : Prop :=
  t ∈ templates ∧ t.family ∉ placed ∧
    ∀ d ∈ t.requires, d ≠ t.family → d ∈ templates.map Template.family → d ∈ placed

variable {templates other : List Template}

theorem placeable_iff {placed : List String} {t : Template} : Placeable templates placed t ↔
    t ∈ templates ∧ t.family ∉ placed ∧ ∀ d ∈ inside templates t, d ∈ placed := by
  simp only [Placeable, mem_inside, and_imp]

theorem ready_iff_placeable {placed : List String} {f : String} :
    Ready templates placed f ↔ ∃ t, Placeable templates placed t ∧ t.family = f := by
  simp only [placeable_iff]
  constructor
  · rintro ⟨t, listed, rfl, new, all⟩
    exact ⟨t, ⟨listed, new, all⟩, rfl⟩
  · rintro ⟨t, ⟨listed, new, all⟩, rfl⟩
    exact ⟨t, listed, rfl, new, all⟩

/-- Under distinct names a family ranks by its only template. -/
theorem rank_of_mem (distinct : (templates.map Template.family).Nodup) {t : Template} (listed : t ∈ templates) :
    rank templates t.family = ⟨!t.isScalar, t.family⟩ := by
  have found : templates.reverse.find? (·.family == t.family) = some t := by
    cases search : templates.reverse.find? (·.family == t.family) with
    | none => simpa using List.find?_eq_none.mp search t (List.mem_reverse.mpr listed)
    | some u =>
      have same : u.family = t.family := by simpa using List.find?_some search
      have listed' := List.mem_reverse.mp (List.mem_of_find?_eq_some search)
      rw [List.inj_on_of_nodup_map distinct listed' listed same]
  rw [rank, found]

theorem rank_lt_rank (distinct : (templates.map Template.family).Nodup) {t u : Template} (listed : t ∈ templates)
    (listed' : u ∈ templates) : rank templates t.family < rank templates u.family ↔ t.Precedes u := by
  rw [rank_of_mem distinct listed, rank_of_mem distinct listed', Template.Precedes, Text.bytes_lt_bytes]
  show (_ ∨ _) ↔ _
  simp

/-! ### Uniqueness -/

/-- There is only one greedy order: it is determined by what is ready and how that ranks. -/
theorem Greedy.unique (ready : ∀ placed f, Ready other placed f ↔ Ready templates placed f)
    (ranks : ∀ f ∈ templates.map Template.family, rank other f = rank templates f) {placed order order' : List String}
    (greedy : Greedy templates placed order) (greedy' : Greedy other placed order') : order' = order := by
  induction greedy generalizing order' with
  | stop none =>
    cases greedy' with
    | stop => rfl
    | place next _ _ => exact absurd ((ready _ _).mp next) (none _)
  | @place placed rest f next least further ih =>
    cases greedy' with
    | stop none => exact absurd ((ready _ _).mpr next) (none _)
    | @place _ rest' g next' least' further' =>
      have same : g = f := by
        by_contra apart
        have next' := (ready _ _).mp next'
        have above := least' f ((ready _ _).mpr next) (Ne.symm apart)
        rw [ranks g next'.mem, ranks f next.mem] at above
        exact asymm_of (· < ·) above (least g next' apart)
      subst same
      rw [ih further']

section relisted

variable {requires : Template → List String} (members : ∀ t ∈ templates, ∀ f, f ∈ requires t ↔ f ∈ t.requires)
  (relisted : other.Perm (templates.map fun t => t.withRequires (requires t)))

include relisted

theorem mem_families_relisted (f : String) : f ∈ other.map Template.family ↔ f ∈ templates.map Template.family := by
  rw [(relisted.map Template.family).mem_iff, List.map_map]
  rfl

theorem nodup_relisted (distinct : (templates.map Template.family).Nodup) :
    (other.map Template.family).Nodup := by
  rw [(relisted.map Template.family).nodup_iff, List.map_map]
  exact distinct

include members in
theorem ready_relisted (placed : List String) (f : String) : Ready other placed f ↔ Ready templates placed f := by
  simp only [Ready, mem_inside, mem_families_relisted relisted, relisted.mem_iff, List.mem_map,
    exists_exists_and_eq_and, Template.family_withRequires, Template.requires_withRequires]
  exact exists_congr fun t => and_congr_right fun listed => by simp only [members t listed]

theorem rank_relisted (distinct : (templates.map Template.family).Nodup) :
    ∀ f ∈ templates.map Template.family, rank other f = rank templates f := by
  intro f known
  obtain ⟨t, listed, rfl⟩ := List.mem_map.mp known
  have listed' : t.withRequires (requires t) ∈ other := relisted.mem_iff.mpr (List.mem_map_of_mem listed)
  have ranked := rank_of_mem (nodup_relisted relisted distinct) listed'
  rwa [Template.family_withRequires, Template.isScalar_withRequires, ← rank_of_mem distinct listed] at ranked

end relisted

/-- The families that are left over ascend. -/
theorem pairwise_cyclic (templates : List Template) : (ofTemplates templates).cyclic.Pairwise (· < ·) :=
  List.Pairwise.filter _ (Keyed.ascends_ofList _)

/-- **The order of registration is the least one possible, so it does not depend on the listing.** Each family is the
least of those that can be placed at its position, until none can be placed; the families left over ascend; and listing
the templates in another order, or the families that each of them requires in another order or more than once, leads to
the same. -/
theorem ofTemplates_least (distinct : (templates.map Template.family).Nodup) :
    (∀ front family back, (ofTemplates templates).order = front ++ family :: back →
      ∃ t, t.family = family ∧ Placeable templates front t ∧
        ∀ u, Placeable templates front u → u ≠ t → t.Precedes u) ∧
    (∀ t, ¬ Placeable templates (ofTemplates templates).order t) ∧
    (ofTemplates templates).cyclic.Pairwise (fun f g => Text.bytes f < Text.bytes g) ∧
    ∀ (requires : Template → List String) (other : List Template),
      (∀ t ∈ templates, ∀ f, f ∈ requires t ↔ f ∈ t.requires) →
      other.Perm (templates.map fun t => t.withRequires (requires t)) → ofTemplates other = ofTemplates templates := by
  have greedy := greedy_ofTemplates distinct
  refine ⟨fun front family back split => ?_, fun t placeable => ?_,
    (pairwise_cyclic templates).imp Text.bytes_lt_bytes.mpr, fun requires other members relisted => ?_⟩
  · obtain ⟨ready, least⟩ := greedy.at_place split
    rw [List.nil_append] at ready least
    obtain ⟨t, placeable, rfl⟩ := ready_iff_placeable.mp ready
    refine ⟨t, rfl, placeable, fun u placeable' apart => ?_⟩
    have names : u.family ≠ t.family := fun same =>
      apart (List.inj_on_of_nodup_map distinct placeable'.1 placeable.1 same)
    exact (rank_lt_rank distinct placeable.1 placeable'.1).mp
      (least u.family (ready_iff_placeable.mpr ⟨u, placeable', rfl⟩) names)
  · exact greedy.at_end t.family (by simpa using ready_iff_placeable.mpr ⟨t, placeable, rfl⟩)
  · have distinct' := nodup_relisted relisted distinct
    have order : (ofTemplates other).order = (ofTemplates templates).order :=
      greedy.unique (ready_relisted members relisted) (rank_relisted relisted distinct) (greedy_ofTemplates distinct')
    have cyclic : (ofTemplates other).cyclic = (ofTemplates templates).cyclic :=
      (pairwise_cyclic other).eq_of_mem_iff (pairwise_cyclic templates) fun f => by
        rw [mem_cyclic distinct', mem_cyclic distinct, mem_families_relisted relisted, order]
    exact Placement.mk.injEq .. ▸ ⟨order, cyclic⟩

/-- A family that requires a single type listed after it, two single types, and two families that require each other. -/
def singlesListedLate : List Template :=
  [(Template.generic "Alpha" "a" 1).requiring ["Zeta", "Elsewhere"], .scalar "Zeta" "z", .scalar "Beta" "b",
    (Template.generic "Loop" "l" 1).requiring ["Knot"], (Template.generic "Knot" "k" 1).requiring ["Loop"]]

/-- Listed backwards, and with every required family named twice, they are placed the same. -/
theorem ofTemplates_least_singlesListedLate : (singlesListedLate.map Template.family).Nodup ∧
    ofTemplates singlesListedLate = ⟨["Beta", "Zeta", "Alpha"], ["Knot", "Loop"]⟩ ∧
    ofTemplates (singlesListedLate.reverse.map fun t => t.withRequires (t.requires ++ t.requires)) =
      ⟨["Beta", "Zeta", "Alpha"], ["Knot", "Loop"]⟩ := by
  have distinct : (singlesListedLate.map Template.family).Nodup := by decide
  have placement : ofTemplates singlesListedLate = ⟨["Beta", "Zeta", "Alpha"], ["Knot", "Loop"]⟩ := by decide +kernel
  obtain ⟨-, -, -, relisted⟩ := ofTemplates_least distinct
  exact ⟨distinct, placement, placement ▸ relisted (fun t => t.requires ++ t.requires) _ (by simp)
    ((List.reverse_perm _).map _)⟩

end Placement

end ForeignBridge
