import ForeignBridge.Catalog
import ForeignBridge.Fingerprint
import ForeignBridge.Proofs.FamilyPass
import ForeignBridge.Proofs.Placements
import ForeignBridge.Proofs.Renderings
import ForeignBridge.Settings.RegistrationReader

/-! # What a fingerprint tells

The bytes of an outcome depend on its members only, not on their order and number (`bytes_of_sameMembers`). Conversely
the members can be told from the bytes, although the lines are put together without their lengths: a line begins with
its tag, and the lines are ascending, so that no other tag comes after the first call that is unbound
(`eq_of_text_eq`). This needs names in which no line break is followed by `unbound `: a call with such a name looks like
two calls. -/

namespace ForeignBridge

namespace Ascending

variable {α : Type} [DecidableEq α] [LT α] [DecidableLT α] [IsStrictTotalOrder α (· < ·)]

/-- Lists of the same members are the same in order. -/
theorem ofList_congr {l m : List α} (same : ∀ x, x ∈ l ↔ x ∈ m) : ofList l = ofList m := by
  have perm : (ofList l).Perm (ofList m) :=
    (List.perm_ext_iff_of_nodup (nodup_ofList l) (nodup_ofList m)).mpr fun x => by rw [mem_ofList, mem_ofList, same]
  exact perm.eq_of_pairwise (fun x y _ _ below above => absurd (trans_of (· < ·) below above) (irrefl_of (· < ·) x))
    (pairwise_ofList l) (pairwise_ofList m)

end Ascending

namespace Outcome

/-! ### Entries -/

/-- What a line of an outcome is about. -/
inductive Tag where
  | failed
  | type
  | unbound

namespace Tag

/-- The beginning of a line. -/
def word : Tag → String
  | .failed => "failed "
  | .type => "type "
  | .unbound => "unbound "

/-- What every later line of an outcome begins with. -/
def mark : Tag → List Char
  | .failed => []
  | .type => []
  | .unbound => "unbound ".toList

theorem eq_of_append_eq {t u : Tag} {xs ys : List Char} (same : t.word.toList ++ xs = u.word.toList ++ ys) : t = u := by
  cases t <;> cases u <;> simp [word] at same ⊢

theorem notMem_mark (t : Tag) : '\n' ∉ t.mark := by cases t <;> decide

end Tag

/-- A member of an outcome. -/
structure Entry where
  tag : Tag
  name : String

/-- The line of a member. -/
def Entry.line (e : Entry) : String := e.tag.word ++ e.name ++ "\n"

/-- The members of an outcome. -/
def entries (o : Outcome) : List Entry :=
  o.types.map (⟨.type, ·.render⟩) ++ o.failed.map (⟨.failed, ·⟩) ++ o.unbound.map (⟨.unbound, ·⟩)

theorem lines_eq (o : Outcome) : o.lines = Ascending.ofList (o.entries.map Entry.line) := by
  simp only [entries, List.map_append, List.map_map]
  rfl

variable {o : Outcome} {name : String}

theorem type_mem_entries : ⟨.type, name⟩ ∈ o.entries ↔ ∃ t ∈ o.types, t.render = name := by simp [entries]

theorem failed_mem_entries : ⟨.failed, name⟩ ∈ o.entries ↔ name ∈ o.failed := by simp [entries]

theorem unbound_mem_entries : ⟨.unbound, name⟩ ∈ o.entries ↔ name ∈ o.unbound := by simp [entries]

/-! ### Telling the lines apart -/

/-- The name of an entry does not look like the end of its line and the beginning of a later one. -/
def Entry.Proper (e : Entry) : Prop := ¬ '\n' :: e.tag.mark <:+: e.name.toList

theorem Entry.toList_line (e : Entry) : e.line.toList = e.tag.word.toList ++ (e.name.toList ++ ['\n']) := by
  simp [line]

theorem Entry.line_injective {e f : Entry} (same : e.line = f.line) : e = f := by
  have chars : e.line.toList = f.line.toList := congrArg String.toList same
  rw [e.toList_line, f.toList_line] at chars
  obtain ⟨tag, name⟩ := e
  obtain ⟨tag', name'⟩ := f
  obtain rfl : tag = tag' := Tag.eq_of_append_eq chars
  rw [List.append_cancel_left_eq, List.append_cancel_right_eq] at chars
  have names : name = name' := String.toList_inj.mp chars
  rw [names]

/-- A line that comes after another one begins with its mark. -/
theorem Entry.mark_prefix {e f : Entry} (below : e.line < f.line) : e.tag.mark <+: f.line.toList := by
  rw [String.lt_iff_toList_lt, e.toList_line, f.toList_line] at below
  rw [f.toList_line]
  obtain ⟨tag, name⟩ := e
  obtain ⟨tag', name'⟩ := f
  cases tag with
  | failed | type => exact List.nil_prefix
  | unbound =>
    cases tag' with
    | unbound => exact List.prefix_append _ _
    | failed | type => simp [Tag.word, List.cons_lt_cons_iff] at below

theorem prefix_of_notMem {c : Char} {p m r : List Char} (fresh : c ∉ p) (pre : p <+: m ++ c :: r) : p <+: m := by
  rcases le_or_gt p.length m.length with le | lt
  · exact List.prefix_of_prefix_length_le pre (List.prefix_append _ _) le
  · have further : m ++ [c] <+: m ++ c :: r := ⟨r, by simp⟩
    have inside := List.prefix_of_prefix_length_le further pre (by simpa using lt)
    exact absurd (inside.subset (by simp)) fresh

/-- A name goes on as far as the line, if what follows it is the beginning of a later line. -/
theorem length_le_of_append_eq {mark body body' rest rest' : List Char} (fresh : '\n' ∉ mark)
    (proper : ¬ '\n' :: mark <:+: body') (follows : rest = [] ∨ mark <+: rest)
    (same : body ++ '\n' :: rest = body' ++ '\n' :: rest') : body'.length ≤ body.length := by
  rcases List.append_eq_append_iff.mp same with ⟨more, rfl, tail⟩ | ⟨more, rfl, _⟩
  · cases more with
    | nil => simp
    | cons c more =>
      obtain ⟨rfl, after⟩ := List.cons.inj tail
      exfalso
      rcases follows with rfl | begins
      · simp at after
      · have inside := prefix_of_notMem fresh (after ▸ begins)
        exact proper ((List.cons_prefix_cons.mpr ⟨rfl, inside⟩).isInfix.trans (List.suffix_append body _).isInfix)
  · simp

/-- The text of a list of entries. -/
def text (es : List Entry) : List Char := es.flatMap fun e => e.line.toList

theorem mark_prefix_text {e : Entry} {es : List Entry} (later : ∀ f ∈ es, e.tag.mark <+: f.line.toList) :
    text es = [] ∨ e.tag.mark <+: text es := by
  cases es with
  | nil => exact .inl rfl
  | cons f es => exact .inr ((later f List.mem_cons_self).trans (List.prefix_append _ _))

/-- **The entries can be told from their text**: the names of both lists are proper, and each line begins with the marks
of those before it. -/
theorem eq_of_text_eq : ∀ {es fs : List Entry}, (∀ e ∈ es, e.Proper) → (∀ f ∈ fs, f.Proper) →
    es.Pairwise (fun e f => e.tag.mark <+: f.line.toList) → fs.Pairwise (fun e f => e.tag.mark <+: f.line.toList) →
    text es = text fs → es = fs
  | [], [], _, _, _, _, _ => rfl
  | [], f :: fs, _, _, _, _, same => by simp [text, Entry.toList_line] at same
  | e :: es, [], _, _, _, _, same => by simp [text, Entry.toList_line] at same
  | ⟨tag, name⟩ :: es, ⟨tag', name'⟩ :: fs, proper, proper', sorted, sorted', same => by
      have lines : tag.word.toList ++ (name.toList ++ '\n' :: text es) =
          tag'.word.toList ++ (name'.toList ++ '\n' :: text fs) := by
        simpa [text, Entry.toList_line] using same
      obtain rfl : tag = tag' := Tag.eq_of_append_eq lines
      have names := List.append_cancel_left lines
      obtain ⟨later, ordered⟩ := List.pairwise_cons.mp sorted
      obtain ⟨later', ordered'⟩ := List.pairwise_cons.mp sorted'
      have le := length_le_of_append_eq tag.notMem_mark (proper' _ List.mem_cons_self) (mark_prefix_text later) names
      have ge := length_le_of_append_eq tag.notMem_mark (proper _ List.mem_cons_self) (mark_prefix_text later')
        names.symm
      obtain ⟨here, rest⟩ := List.append_inj names (le_antisymm ge le)
      obtain rfl : name = name' := String.toList_inj.mp here
      rw [eq_of_text_eq (fun e he => proper e (List.mem_cons_of_mem _ he))
        (fun f hf => proper' f (List.mem_cons_of_mem _ hf)) ordered ordered' (List.cons.inj rest).2]

/-! ### Bytes -/

theorem toList_eq_data (bytes : ByteArray) : bytes.toList = bytes.data.toList := by
  have loop : ∀ (n i : ℕ) (done : List UInt8), n = bytes.size - i →
      ByteArray.toList.loop bytes i done = done.reverse ++ bytes.data.toList.drop i := by
    intro n
    induction n with
    | zero =>
      intro i done none
      have beyond : bytes.data.toList.length ≤ i := by simpa using Nat.sub_eq_zero_iff_le.mp none.symm
      rw [ByteArray.toList.loop, if_neg (by omega), List.drop_eq_nil_of_le beyond, List.append_nil]
    | succ n ih =>
      intro i done more
      have inside : i < bytes.size := by omega
      have inside' : i < bytes.data.toList.length := by simpa using inside
      rw [ByteArray.toList.loop, if_pos inside, ih (i + 1) _ (by omega), List.drop_eq_getElem_cons inside']
      simp [ByteArray.get!, getElem!_pos, inside]
  simpa [ByteArray.toList] using loop _ 0 [] rfl

theorem bytes_eq_iff_join (a b : Outcome) : a.bytes = b.bytes ↔ String.join a.lines = String.join b.lines := by
  rw [bytes, bytes, toList_eq_data, toList_eq_data, Array.toList_inj, ← ByteArray.ext_iff, String.toUTF8_eq_toByteArray,
    String.toUTF8_eq_toByteArray, String.toByteArray_inj]

theorem toList_join (ls : List String) : (String.join ls).toList = ls.flatMap String.toList := by
  induction ls with
  | nil => rfl
  | cons l ls ih => rw [String.join_cons, String.toList_append, ih, List.flatMap_cons]

/-! ### Members -/

/-- The outcomes have the same members, in whatever order and however often. -/
structure SameMembers (a b : Outcome) : Prop where
  types : ∀ t, t ∈ a.types ↔ t ∈ b.types
  failed : ∀ f, f ∈ a.failed ↔ f ∈ b.failed
  unbound : ∀ c, c ∈ a.unbound ↔ c ∈ b.unbound

/-- The types of the outcome can be read, the families are in the catalog, and no call has a name in which a line break
comes before the beginning of a line about another call. -/
structure Plain (o : Outcome) : Prop where
  types : ∀ t ∈ o.types, ∃ text, TypeExpr.ofString text = .ok t
  failed : ∀ f ∈ o.failed, ∃ t ∈ Catalog.templates, t.family = f
  unbound : ∀ c ∈ o.unbound, ¬ "\nunbound ".toList <:+: c.toList

variable {a b : Outcome}

theorem SameMembers.lines (same : a.SameMembers b) : a.lines = b.lines := by
  rw [lines_eq, lines_eq]
  apply Ascending.ofList_congr
  simp [entries, same.types, same.failed, same.unbound]

theorem SameMembers.fingerprint (same : a.SameMembers b) : a.fingerprint = b.fingerprint := by
  unfold Outcome.fingerprint bytes
  rw [same.lines]

theorem Plain.proper (plain : o.Plain) : ∀ e ∈ o.entries, e.Proper := by
  have noBreak : ∀ {name : String}, '\n' ∉ name.toList → ¬ ['\n'] <:+: name.toList := fun free inside =>
    free (inside.subset (by simp))
  rintro ⟨tag, name⟩ he
  cases tag with
  | type =>
    obtain ⟨t, ht, rfl⟩ := type_mem_entries.mp he
    obtain ⟨text, read⟩ := plain.types t ht
    refine noBreak ?_
    rw [TypeExpr.filter_of_read (TypeExpr.ofString_eq_ok_iff.mp read), List.mem_filter]
    exact fun both => absurd both.2 (by decide)
  | failed =>
    have families : ∀ t ∈ Catalog.templates, '\n' ∉ t.family.toList := by decide +kernel
    obtain ⟨t, listed, rfl⟩ := plain.failed name (failed_mem_entries.mp he)
    exact noBreak (families t listed)
  | unbound => exact plain.unbound name (unbound_mem_entries.mp he)

/-- The lines of an outcome are those of entries that can be told from their text. -/
theorem Plain.exists_entries (plain : o.Plain) : ∃ es : List Entry, o.lines = es.map Entry.line ∧
    (∀ e ∈ es, e.Proper) ∧ es.Pairwise fun e f => e.tag.mark <+: f.line.toList := by
  have inside : o.lines ⊆ o.entries.map Entry.line := fun l hl => by
    rw [lines_eq] at hl
    exact Ascending.mem_ofList.mp hl
  obtain ⟨es, within, lines⟩ := Registration.exists_map_eq Entry.line inside
  refine ⟨es, lines, fun e he => plain.proper e (within he), ?_⟩
  have ascends : o.lines.Pairwise (· < ·) := by
    rw [lines_eq]
    exact Ascending.pairwise_ofList _
  rw [lines, List.pairwise_map] at ascends
  exact ascends.imp Entry.mark_prefix

theorem Plain.lines_eq_of_bytes_eq (plain : a.Plain) (plain' : b.Plain) (same : a.bytes = b.bytes) :
    a.lines = b.lines := by
  obtain ⟨es, lines, proper, sorted⟩ := plain.exists_entries
  obtain ⟨fs, lines', proper', sorted'⟩ := plain'.exists_entries
  have texts : text es = text fs := by
    have chars := congrArg String.toList ((bytes_eq_iff_join a b).mp same)
    rw [lines, lines', toList_join, toList_join, List.flatMap_map, List.flatMap_map] at chars
    exact chars
  rw [lines, lines', eq_of_text_eq proper proper' sorted sorted' texts]

theorem mem_entries_of_lines_eq (same : a.lines = b.lines) {e : Entry} (he : e ∈ a.entries) : e ∈ b.entries := by
  rw [lines_eq, lines_eq] at same
  have there : e.line ∈ Ascending.ofList (b.entries.map Entry.line) :=
    same ▸ Ascending.mem_ofList.mpr (List.mem_map_of_mem he)
  obtain ⟨f, hf, line⟩ := List.mem_map.mp (Ascending.mem_ofList.mp there)
  exact Entry.line_injective line ▸ hf

theorem Plain.mem_types (plain : a.Plain) (plain' : b.Plain) (same : a.lines = b.lines) {t : TypeExpr}
    (ht : t ∈ a.types) : t ∈ b.types := by
  obtain ⟨u, hu, text⟩ := type_mem_entries.mp (mem_entries_of_lines_eq same (type_mem_entries.mpr ⟨t, ht, rfl⟩))
  obtain ⟨source, read⟩ := plain.types t ht
  obtain ⟨source', read'⟩ := plain'.types u hu
  have names := (TypeExpr.read_eq_ok_iff.mp (TypeExpr.ofString_eq_ok_iff.mp read)).1.names
  exact TypeExpr.eq_of_render_eq names (TypeExpr.ofString_eq_ok_iff.mp read') text ▸ hu

/-- **The bytes of an outcome tell its members.** Outcomes of the same members have the same bytes, and outcomes of the
same bytes have the same members, if no name of a call contains the beginning of a line about another call. -/
theorem bytes_eq_iff : (a.SameMembers b → a.bytes = b.bytes) ∧
    (a.Plain → b.Plain → a.bytes = b.bytes → a.SameMembers b) := by
  refine ⟨fun same => by rw [bytes, bytes, same.lines], fun plain plain' same => ?_⟩
  have lines := plain.lines_eq_of_bytes_eq plain' same
  have forth := fun e => mem_entries_of_lines_eq lines (e := e)
  have back := fun e => mem_entries_of_lines_eq lines.symm (e := e)
  refine ⟨fun t => ⟨plain.mem_types plain' lines, plain'.mem_types plain lines.symm⟩, fun f => ?_, fun c => ?_⟩
  · rw [← failed_mem_entries, ← failed_mem_entries]
    exact ⟨forth _, back _⟩
  · rw [← unbound_mem_entries, ← unbound_mem_entries]
    exact ⟨forth _, back _⟩

/-- It makes a difference whether a family failed or a call of that name is unbound, but not which type comes first. -/
theorem bytes_eq_iff_failedOrUnbound :
    let a : Outcome := ⟨[.concrete "Int", .concrete "Bool"], ["Rational"], []⟩
    let b : Outcome := ⟨[.concrete "Int", .concrete "Bool"], [], ["Rational"]⟩
    let c : Outcome := ⟨[.concrete "Bool", .concrete "Int", .concrete "Bool"], ["Rational"], []⟩
    a.Plain ∧ b.Plain ∧ a.SameMembers c ∧ a.bytes ≠ b.bytes ∧ a.bytes = c.bytes := by
  intro a b c
  have types : ∀ t ∈ [TypeExpr.concrete "Int", .concrete "Bool"], ∃ text, TypeExpr.ofString text = .ok t := by
    simp only [List.forall_mem_cons]
    exact ⟨⟨"Int", by decide +kernel⟩, ⟨"Bool", by decide +kernel⟩, by simp⟩
  have plain : a.Plain := ⟨types, by decide +kernel, by simp [a]⟩
  have plain' : b.Plain := ⟨types, by simp [b], by decide +kernel⟩
  have same : a.SameMembers c := ⟨by simp [a, c, or_comm], by simp [a, c], by simp [a, c]⟩
  refine ⟨plain, plain', same, fun bytes => ?_, bytes_eq_iff.1 same⟩
  have failed := (bytes_eq_iff.2 plain plain' bytes).failed "Rational"
  simp [a, b] at failed

/-- The settings accept a call the name of which contains the beginning of a line, and it looks like two calls. -/
theorem bytes_eq_lineBreakInName :
    let one : String := "[[registration.direct-calls]]\nname = \"a\\nunbound b\"\nfunction = \"m.f\"\n"
    let two : String := "[[registration.direct-calls]]\nname = \"a\"\nfunction = \"m.f\"\n" ++
      "[[registration.direct-calls]]\nname = \"b\"\nfunction = \"m.f\"\n"
    ∃ settings settings', RegistrationSettings.ofString one = .ok settings ∧
      RegistrationSettings.ofString two = .ok settings' ∧
      let a : Outcome := ⟨[], [], settings.directCalls.map DirectCallSpec.name⟩
      let b : Outcome := ⟨[], [], settings'.directCalls.map DirectCallSpec.name⟩
      a.bytes = b.bytes ∧ ¬ a.SameMembers b := by
  intro one two
  refine ⟨⟨[], [], [⟨"a\nunbound b", "m.f", [], none, true⟩]⟩,
    ⟨[], [], [⟨"a", "m.f", [], none, true⟩, ⟨"b", "m.f", [], none, true⟩]⟩, by decide +kernel, by decide +kernel, ?_⟩
  intro a b
  refine ⟨(bytes_eq_iff_join a b).mpr (by decide +kernel), fun same => ?_⟩
  have there : "a" ∈ a.unbound := (same.unbound "a").mpr (by decide)
  exact absurd there (by decide)

end Outcome

end ForeignBridge
