import Mathlib
import ForeignBridge.TypeExpr.Token

/-! # Texts and their lexemes

`Laid offset text ls` says that the text, whose first character is at the byte `offset`, consists of the lexemes `ls`
and of blanks between them. The lexemes that are cut from a text are laid out in it (`laid_lexemesFrom`).

`Spaced ts text` says that the text consists of the tokens `ts` with any blanks before, between and after them. Where no
name follows a name, this is so exactly if the lexemes of the text are the pieces of these tokens
(`spaced_iff_pieces`). -/

namespace ForeignBridge

namespace Text

/-! ### Blanks are no letters -/

/-- No character lies in both of two properties whose ranges are apart. -/
theorem Ranges.holds_eq_false {a b : Ranges} (apart : ∀ x ∈ a, ∀ y ∈ b, x.2 < y.1 ∨ y.2 < x.1) {c : Char}
    (inside : a.holds c = true) : b.holds c = false := by
  obtain ⟨x, hx, low, high⟩ := Ranges.holds_iff.mp inside
  rw [Bool.eq_false_iff]
  intro other
  obtain ⟨y, hy, low', high'⟩ := Ranges.holds_iff.mp other
  have := apart x hx y hy
  omega

theorem isAlphanumeric_eq_false {c : Char} (blank : isBlank c = true) : isAlphanumeric c = false := by
  unfold isAlphanumeric
  split
  · next ascii =>
    obtain ⟨r, hr, low, high⟩ := Ranges.holds_iff.mp blank
    have known : c.toNat < 0x30 := by
      simp only [blankRanges, List.mem_cons, List.not_mem_nil, or_false] at hr
      rcases hr with rfl | rfl | rfl | rfl | rfl | rfl | rfl | rfl | rfl | rfl <;> simp only at low high <;> omega
    rw [Bool.eq_false_iff]
    intro letter
    simp only [Char.isAlphanum, Char.isAlpha, Char.isUpper, Char.isLower, Char.isDigit, Bool.or_eq_true,
      Bool.and_eq_true, decide_eq_true_eq, ge_iff_le, UInt32.le_iff_toNat_le] at letter
    change ((65 ≤ c.toNat ∧ c.toNat ≤ 90) ∨ (97 ≤ c.toNat ∧ c.toNat ≤ 122)) ∨ (48 ≤ c.toNat ∧ c.toNat ≤ 57) at letter
    omega
  · exact Ranges.holds_eq_false (by decide +kernel) blank

end Text

namespace TypeExpr

theorem isNameChar_eq_false {c : Char} (blank : Text.isBlank c = true) : isNameChar c = false := by
  unfold isNameChar
  rw [Text.isAlphanumeric_eq_false blank, Bool.false_or, Bool.or_eq_false_iff, decide_eq_false_iff_not,
    decide_eq_false_iff_not]
  constructor <;> rintro rfl <;> revert blank <;> decide

theorem isBlank_eq_false {c : Char} (letter : isNameChar c = true) : Text.isBlank c = false := by
  rw [Bool.eq_false_iff]
  intro blank
  rw [isNameChar_eq_false blank] at letter
  cases letter

/-! ### Lexemes in their text -/

/-- The characters of a piece. -/
def Piece.chars : Piece → List Char
  | .name chars => chars
  | .mark c => [c]

/-- A piece as it is cut from a text: a name has characters, all of them name characters, and a mark is neither one of
these nor a blank. -/
def Piece.Proper : Piece → Prop
  | .name chars => chars ≠ [] ∧ ∀ c ∈ chars, isNameChar c = true
  | .mark c => isNameChar c = false ∧ Text.isBlank c = false

/-- The number of bytes of a text. -/
def width (text : List Char) : ℕ := (text.map Char.utf8Size).sum

/-- A text of blanks only. -/
def IsGap (text : List Char) : Prop := ∀ c ∈ text, Text.isBlank c = true

/-- The lexemes stand in the text one after the other, with blanks between them. The first character of the text is at
the byte `offset`. -/
inductive Laid : ℕ → List Char → List Lexeme → Prop where
  | nil {offset : ℕ} {gap : List Char} (blank : IsGap gap) : Laid offset gap []
  | cons {offset : ℕ} {gap text : List Char} {piece : Piece} {ls : List Lexeme} (blank : IsGap gap)
      (proper : piece.Proper) (later : Laid (offset + width gap + width piece.chars) text ls) :
      Laid offset (gap ++ (piece.chars ++ text)) (⟨piece, offset + width gap⟩ :: ls)

theorem width_cons (c : Char) (text : List Char) : width (c :: text) = c.utf8Size + width text := by
  simp [width]

theorem eq_nil_of_width {text : List Char} (none : width text = 0) : text = [] := by
  cases text with
  | nil => rfl
  | cons c rest =>
    have := c.utf8Size_pos
    rw [width_cons] at none
    omega

theorem IsGap.cons {c : Char} {gap : List Char} (first : Text.isBlank c = true) (rest : IsGap gap) :
    IsGap (c :: gap) := fun d hd => (List.mem_cons.mp hd).elim (fun e => e ▸ first) (rest d)

theorem isGap_nil : IsGap [] := fun _ hc => absurd hc List.not_mem_nil

theorem Laid.blank {offset : ℕ} {c : Char} {text : List Char} {ls : List Lexeme} (blank : Text.isBlank c = true)
    (laid : Laid (offset + c.utf8Size) text ls) : Laid offset (c :: text) ls := by
  cases laid with
  | nil gap => exact .nil (gap.cons blank)
  | @cons _ gap text piece ls isGap proper later =>
    have start : offset + c.utf8Size + width gap = offset + width (c :: gap) := by rw [width_cons, add_assoc]
    rw [start] at later ⊢
    exact .cons (isGap.cons blank) proper later

/-- A piece at the very start of a text. -/
theorem Laid.here {offset : ℕ} {text : List Char} {piece : Piece} {ls : List Lexeme} (proper : piece.Proper)
    (later : Laid (offset + width piece.chars) text ls) : Laid offset (piece.chars ++ text) (⟨piece, offset⟩ :: ls) :=
  @Laid.cons _ [] _ _ _ isGap_nil proper later

/-- A name character in front of a text joins the name at its start, if there is one. -/
theorem Laid.attach {offset : ℕ} {c : Char} {text : List Char} {ls : List Lexeme} (letter : isNameChar c = true)
    (laid : Laid (offset + c.utf8Size) text ls) : Laid offset (c :: text) (attach c offset ls) := by
  have single : (Piece.name [c]).Proper := ⟨by simp, by simpa using letter⟩
  have alone : Laid (offset + width (Piece.name [c]).chars) text ls := by simpa [Piece.chars, width] using laid
  unfold TypeExpr.attach
  split
  · next chars p rest =>
    split
    · next adjacent =>
      cases laid with
      | @cons _ gap text _ _ blank proper later =>
        -- the name starts at the next byte, so no blank stands in between
        obtain rfl : gap = [] := eq_nil_of_width (by omega)
        have joined : (Piece.name (c :: chars)).Proper :=
          ⟨by simp, fun d hd => (List.mem_cons.mp hd).elim (fun e => e ▸ letter) (proper.2 d)⟩
        refine @Laid.here _ _ (.name (c :: chars)) _ joined ?_
        have next : offset + c.utf8Size + width [] + width chars = offset + width (c :: chars) := by
          rw [width_cons, show width [] = 0 from rfl]
          omega
        exact next ▸ later
    · exact Laid.here single alone
  · exact Laid.here single alone

/-- **The lexemes of a text are laid out in it.** -/
theorem laid_lexemesFrom : ∀ (text : List Char) (offset : ℕ), Laid offset text (lexemesFrom offset text)
  | [], _ => .nil isGap_nil
  | c :: rest, offset => by
      have later := laid_lexemesFrom rest (offset + c.utf8Size)
      unfold lexemesFrom
      split
      · next blank => exact later.blank blank
      · next solid =>
        split
        · next letter => exact later.attach letter
        · next other =>
          simp only [Bool.not_eq_true] at solid other
          refine @Laid.here _ _ (.mark c) _ ⟨other, solid⟩ ?_
          simpa [Piece.chars, width] using later

theorem Laid.proper {offset : ℕ} {text : List Char} {ls : List Lexeme} (laid : Laid offset text ls) :
    ∀ l ∈ ls, l.piece.Proper := by
  induction laid with
  | nil => simp
  | cons _ proper _ ih => exact fun l hl => (List.mem_cons.mp hl).elim (fun e => e ▸ proper) (ih l)

/-! ### Texts of tokens -/

/-- The piece of text that a token makes. -/
def Token.piece : Token → Piece
  | .name text => .name text.toList
  | .openAngle => .mark '<'
  | .comma => .mark ','
  | .closeAngle => .mark '>'

/-- The text consists of these tokens, with any blanks before, between and after them. -/
inductive Spaced : List Token → List Char → Prop where
  | nil {gap : List Char} (blank : IsGap gap) : Spaced [] gap
  | cons {gap text : List Char} {t : Token} {ts : List Token} (blank : IsGap gap) (later : Spaced ts text) :
      Spaced (t :: ts) (gap ++ (t.text.toList ++ text))

/-- The token is a name. -/
def Token.isName : Token → Bool
  | .name _ => true
  | _ => false

/-- No name follows a name, and all names are proper. -/
structure Readable (ts : List Token) : Prop where
  apart : ts.IsChain fun a b => (a.isName && b.isName) = false
  names : ∀ t ∈ ts, t.piece.Proper

theorem Token.chars_piece (t : Token) : t.piece.chars = t.text.toList := by
  cases t <;> rfl

theorem Token.proper_piece {t : Token} (mark : t.isName = false) : t.piece.Proper := by
  cases t with
  | name => cases mark
  | openAngle | comma | closeAngle => constructor <;> decide +kernel

theorem Laid.spaced {ts : List Token} {offset : ℕ} {text : List Char} {ls : List Lexeme} (laid : Laid offset text ls)
    (same : ls.map Lexeme.piece = ts.map Token.piece) : Spaced ts text := by
  induction laid generalizing ts with
  | nil blank =>
    obtain rfl : ts = [] := by simpa using same.symm
    exact .nil blank
  | cons blank _ _ ih =>
    cases ts with
    | nil => cases same
    | cons t ts =>
      obtain ⟨head, rest⟩ := List.cons.inj same
      simp only at head
      rw [head, Token.chars_piece]
      exact .cons blank (ih rest)

theorem lexemesFrom_gap {gap : List Char} (blank : IsGap gap) : ∀ (offset : ℕ) (text : List Char),
    lexemesFrom offset (gap ++ text) = lexemesFrom (offset + width gap) text := by
  induction gap with
  | nil => exact fun offset text => rfl
  | cons c gap ih =>
    intro offset text
    have rest := ih (fun d hd => blank d (List.mem_cons_of_mem _ hd)) (offset + c.utf8Size) text
    rw [List.cons_append, lexemesFrom, if_pos (blank c List.mem_cons_self), rest, width_cons, add_assoc]

/-- A name before a text that does not start with another name. -/
theorem lexemesFrom_name {text : List Char} : ∀ {chars : List Char}, chars ≠ [] → (∀ c ∈ chars, isNameChar c = true) →
    ∀ offset, (∀ l ∈ (lexemesFrom (offset + width chars) text).head?, ∃ c, l.piece = .mark c) →
      lexemesFrom offset (chars ++ text) = ⟨.name chars, offset⟩ :: lexemesFrom (offset + width chars) text
  | [], nonempty, _, _, _ => absurd rfl nonempty
  | [c], _, letters, offset, other => by
      have letter := letters c List.mem_cons_self
      rw [List.singleton_append, lexemesFrom, if_neg (by simp [isBlank_eq_false letter]), if_pos letter]
      have size : width [c] = c.utf8Size := by simp [width]
      rw [size] at other ⊢
      cases first : lexemesFrom (offset + c.utf8Size) text with
      | nil => rfl
      | cons l rest =>
        obtain ⟨d, mark⟩ := other l (by simp [first])
        obtain ⟨piece, p⟩ := l
        obtain rfl : piece = .mark d := mark
        rfl
  | c :: d :: chars, _, letters, offset, other => by
      have letter := letters c List.mem_cons_self
      rw [width_cons, ← add_assoc] at other ⊢
      have rest := lexemesFrom_name (List.cons_ne_nil d chars)
        (fun e he => letters e (List.mem_cons_of_mem _ he)) (offset + c.utf8Size) other
      rw [List.cons_append, lexemesFrom, if_neg (by simp [isBlank_eq_false letter]), if_pos letter, rest]
      exact if_pos rfl

theorem Spaced.pieces {ts : List Token} {text : List Char} (spaced : Spaced ts text) (readable : Readable ts) :
    ∀ offset, (lexemesFrom offset text).map Lexeme.piece = ts.map Token.piece := by
  induction spaced with
  | nil blank =>
    intro offset
    have all := lexemesFrom_gap blank offset []
    rw [List.append_nil] at all
    rw [all]
    rfl
  | @cons gap text t ts blank later ih =>
    intro offset
    have others : Readable ts := ⟨readable.apart.of_cons, fun u hu => readable.names u (List.mem_cons_of_mem _ hu)⟩
    rw [lexemesFrom_gap blank, ← Token.chars_piece]
    generalize offset + width gap = start
    cases t with
    | name n =>
      obtain ⟨nonempty, letters⟩ := readable.names _ List.mem_cons_self
      show (lexemesFrom start (n.toList ++ text)).map Lexeme.piece = _
      rw [lexemesFrom_name nonempty letters]
      · exact congrArg _ (ih others _)
      · -- the next token is no name, so the text goes on with a mark
        intro l hl
        have pieces := ih others (start + width n.toList)
        cases ts with
        | nil =>
          rw [List.map_nil, List.map_eq_nil_iff] at pieces
          rw [pieces] at hl
          cases hl
        | cons u ts =>
          obtain ⟨rest, hr⟩ : ∃ rest, lexemesFrom (start + width n.toList) text = l :: rest :=
            List.head?_eq_some_iff.mp hl
          rw [hr] at pieces
          have head : l.piece = u.piece := (List.cons.inj pieces).1
          have next : u.isName = false := by simpa [Token.isName] using readable.apart.rel
          cases u with
          | name => cases next
          | openAngle | comma | closeAngle => exact ⟨_, head⟩
    | openAngle | comma | closeAngle =>
      obtain ⟨other, solid⟩ := readable.names _ List.mem_cons_self
      show (lexemesFrom start (_ :: text)).map Lexeme.piece = _
      rw [lexemesFrom, if_neg (by simp [solid]), if_neg (by simp [other])]
      exact congrArg _ (ih others _)

/-- **The lexemes of a text are the pieces of some tokens exactly if the text consists of these tokens and blanks.** -/
theorem spaced_iff_pieces {ts : List Token} (readable : Readable ts) (text : String) :
    Spaced ts text.toList ↔ (lexemes text).map Lexeme.piece = ts.map Token.piece :=
  ⟨fun spaced => spaced.pieces readable 0, (laid_lexemesFrom text.toList 0).spaced⟩

end TypeExpr

end ForeignBridge
