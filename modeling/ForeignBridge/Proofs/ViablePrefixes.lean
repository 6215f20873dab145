import ForeignBridge.Proofs.Grammar

/-! # Viable prefixes

The reader stops at the first lexeme that cannot go on, and the fault names the character at which that lexeme starts.
What comes before that character can be completed: the reader has gone over it, so a name and a `>` for each open family
lead to an expression that fits (`viable_of_steps`). And with that character it cannot: whatever follows it, the text
has the same lexemes up to there (`splitsAt_of_lexemesFrom`), and the next one stands at the same place, is of the same
kind and starts with the same character, on which alone the fault depends (`step_of_alike`). A text that is refused at
its end has only been gone over, so that it can be completed too (`ofString_points`). -/

namespace ForeignBridge

namespace TypeExpr

/-! ### Viable texts -/

/-- The text can be extended to one that is read. -/
def Viable (text : String) : Prop := ∃ rest t, ofString (text ++ rest) = .ok t

/-- The character that a fault complains of, and the byte at which it stands. -/
def Fault.place? : Fault → Option (Char × ℕ)
  | .expectedName found => found
  | .expectedSeparator c p => some (c, p)
  | .trailing c p => some (c, p)
  | .leadingDigit _ | .tooDeep _ | .unclosed _ => none

/-- The fault is that the text ends too early. -/
def Fault.atEnd : Fault → Bool
  | .expectedName none | .unclosed _ => true
  | _ => false

/-- The message tells the place. -/
theorem Fault.message_of_place {fault : Fault} {c : Char} {p : ℕ} (place : fault.place? = some (c, p)) :
    ∃ words : String, fault.message = words ++ s!"'{c}' at offset {p}" := by
  have split : ∀ {text words : String}, text = words ++ "'" → s!"{text}{c}' at offset {p}" =
      words ++ s!"'{c}' at offset {p}" := fun {text words} same => by
    rw [same]
    show words ++ "'" ++ toString c ++ "' at offset " ++ toString p =
      words ++ ("'" ++ toString c ++ "' at offset " ++ toString p)
    simp only [String.append_assoc]
  cases fault with
  | expectedName found =>
    obtain rfl : found = some (c, p) := place
    exact ⟨"expected a type name, found ", split (by decide)⟩
  | expectedSeparator d q =>
    obtain ⟨rfl, rfl⟩ := Prod.mk.inj (Option.some.inj place)
    exact ⟨"expected ',' or '>' but found ", split (by decide)⟩
  | trailing d q =>
    obtain ⟨rfl, rfl⟩ := Prod.mk.inj (Option.some.inj place)
    exact ⟨"unexpected ", split (by decide)⟩
  | leadingDigit | tooDeep | unclosed => cases place

theorem Fault.atEnd_of_place {fault : Fault} {place : Char × ℕ} (there : fault.place? = some place) :
    fault.atEnd = false := by
  cases fault with
  | expectedName found =>
    obtain rfl : found = some place := there
    rfl
  | expectedSeparator | trailing | leadingDigit | tooDeep => rfl
  | unclosed => cases there

/-! ### Completing what has been read -/

/-- The expression that results when the open families are closed after `t`. -/
def closeAll : List Frame → TypeExpr → TypeExpr
  | [], t => t
  | f :: outer, t => closeAll outer ⟨f.name, (t :: f.params).reverse⟩

theorem tokens_closeAll : ∀ (frames : List Frame) (t : TypeExpr),
    Progress.tokens ⟨frames, .closed t⟩ ++ List.replicate frames.length .closeAngle = (closeAll frames t).tokens
  | [], t => by simp [Progress.tokens, Focus.tokens, closeAll]
  | f :: outer, t => by
      have inner : Progress.tokens ⟨f :: outer, .closed t⟩ ++ [.closeAngle] =
          Progress.tokens ⟨outer, .closed ⟨f.name, (t :: f.params).reverse⟩⟩ := by
        rw [tokens_inner, List.append_assoc, List.append_assoc]
        show _ ++ (f.tokens ++ (t.tokens ++ _)) = _
        rw [tokens_close]
        simp [Progress.tokens, Focus.tokens]
      calc
        _ = Progress.tokens ⟨f :: outer, .closed t⟩ ++ [.closeAngle] ++ List.replicate outer.length .closeAngle := by
          rw [List.append_assoc]
          rfl
        _ = (closeAll (f :: outer) t).tokens := by rw [inner, tokens_closeAll outer, closeAll]

theorem fits_closeAll : ∀ (frames : List Frame) {t : TypeExpr}, FramesFit frames → Fits frames.length t →
    Fits 0 (closeAll frames t)
  | [], _, _, fits => fits
  | f :: outer, t, ⟨room, name, params, rest⟩, fits => by
      refine fits_closeAll outer rest (fits_iff.mpr ⟨name, room.le, fun p hp => ?_⟩)
      exact List.forall_mem_cons.mpr ⟨fits, params⟩ p (List.mem_reverse.mp hp)

/-- What has been read in a good way is the beginning of an expression that fits. -/
theorem Progress.Good.completes {q : Progress} (good : q.Good) : ∃ more t, q.tokens ++ more = t.tokens ∧ Fits 0 t := by
  obtain ⟨frames, focus⟩ := q
  have finish : ∀ {t : TypeExpr}, focus.seen = some t →
      ∃ more t, Progress.tokens ⟨frames, focus⟩ ++ more = t.tokens ∧ Fits 0 t := fun {t} seen => by
    refine ⟨List.replicate frames.length .closeAngle, closeAll frames t, ?_,
      fits_closeAll frames good.frames (good.focus t seen)⟩
    rw [← tokens_closeAll frames t, Progress.tokens, Focus.tokens_of_seen seen]
    rfl
  cases focus with
  | head n => exact finish rfl
  | closed t => exact finish rfl
  | start =>
    -- any name will do
    have name : IsName "a" :=
      isName_iff.mpr ⟨⟨by simp, by simp [isNameChar, Text.isAlphanumeric]⟩, by simp [startsWithDigit]⟩
    have fits : Fits frames.length (concrete "a") := fits_iff.mpr ⟨name, good.frames.length_le, by simp⟩
    refine ⟨.name "a" :: List.replicate frames.length .closeAngle, closeAll frames (concrete "a"), ?_,
      fits_closeAll frames good.frames fits⟩
    rw [← tokens_closeAll frames, Progress.tokens, Progress.tokens]
    simp [Focus.tokens, tokens_concrete]

theorem Spaced.gap {ts : List Token} {gap text : List Char} (blank : IsGap gap) (spaced : Spaced ts text) :
    Spaced ts (gap ++ text) := by
  have both : ∀ {other}, IsGap other → IsGap (gap ++ other) := fun isGap c hc =>
    (List.mem_append.mp hc).elim (blank c) (isGap c)
  cases spaced with
  | nil isGap => exact .nil (both isGap)
  | cons isGap later =>
    rw [← List.append_assoc]
    exact .cons (both isGap) later

theorem Spaced.append {ts us : List Token} {front back : List Char} (spaced : Spaced ts front)
    (spaced' : Spaced us back) : Spaced (ts ++ us) (front ++ back) := by
  induction spaced with
  | nil blank => exact spaced'.gap blank
  | cons blank _ ih =>
    rw [List.append_assoc, List.append_assoc]
    exact .cons blank ih

/-- **A text that the reader goes over can be completed.** -/
theorem viable_of_steps {text : String} {q : Progress} (ok : steps .initial (lexemes text) = .ok q) : Viable text := by
  have laid := laid_lexemesFrom text.toList 0
  obtain ⟨pieces, good⟩ := steps_sound laid.proper good_initial ok
  have read : Spaced q.tokens text.toList := laid.spaced pieces.symm
  obtain ⟨more, t, whole, fits⟩ := good.completes
  refine ⟨String.join (more.map Token.text), t, ofString_eq_ok_iff.mpr (read_eq_ok_iff.mpr ⟨fits, ?_⟩)⟩
  rw [String.toList_append, ← whole]
  exact read.append (spaced_render more)

/-! ### Lexemes up to a place -/

/-- The piece is a name. -/
def Piece.isName : Piece → Bool
  | .name _ => true
  | .mark _ => false

/-- The lexemes stand at the same place, start with the same character and are of the same kind. -/
structure Lexeme.Alike (l m : Lexeme) : Prop where
  offset : m.offset = l.offset
  head : m.piece.head = l.piece.head
  isName : m.piece.isName = l.piece.isName

/-- A lexeme is a name exactly if its first character is a name character. -/
theorem Piece.Proper.isName_eq {piece : Piece} (proper : piece.Proper) : piece.isName = isNameChar piece.head := by
  cases piece with
  | mark c => exact proper.1.symm
  | name chars =>
    obtain ⟨c, rest, rfl⟩ := List.exists_cons_of_ne_nil proper.1
    exact (proper.2 c List.mem_cons_self).symm

/-- A name comes first, right at the given byte. -/
def Joins (offset : ℕ) (ls : List Lexeme) : Prop := ∃ l ∈ ls.head?, l.piece.isName = true ∧ l.offset = offset

theorem attach_of_joins {c : Char} {offset : ℕ} {ls : List Lexeme} (joins : Joins (offset + c.utf8Size) ls) :
    ∃ chars rest, ls = ⟨.name chars, offset + c.utf8Size⟩ :: rest ∧
      attach c offset ls = ⟨.name (c :: chars), offset⟩ :: rest := by
  obtain ⟨⟨piece, p⟩, first, name, rfl⟩ := joins
  obtain ⟨rest, rfl⟩ := List.head?_eq_some_iff.mp first
  cases piece with
  | mark d => cases name
  | name chars => exact ⟨chars, rest, rfl, if_pos rfl⟩

theorem attach_of_not_joins {c : Char} {offset : ℕ} {ls : List Lexeme} (apart : ¬ Joins (offset + c.utf8Size) ls) :
    attach c offset ls = ⟨.name [c], offset⟩ :: ls := by
  unfold attach
  split
  · next chars p rest => exact if_neg fun same => apart ⟨_, rfl, rfl, same⟩
  · rfl

/-- A text starts with the lexeme of its first character, unless that is a blank. -/
theorem exists_lexemesFrom_cons {c : Char} (solid : Text.isBlank c = false) (offset : ℕ) (text : List Char) :
    ∃ l ls, lexemesFrom offset (c :: text) = l :: ls ∧ l.offset = offset ∧ l.piece.head = c := by
  unfold lexemesFrom
  rw [if_neg (by simp [solid])]
  split
  · by_cases joins : Joins (offset + c.utf8Size) (lexemesFrom (offset + c.utf8Size) text)
    · obtain ⟨chars, rest, _, joined⟩ := attach_of_joins joins
      exact ⟨_, _, joined, rfl, rfl⟩
    · exact ⟨_, _, attach_of_not_joins joins, rfl, rfl⟩
  · exact ⟨_, _, rfl, rfl, rfl⟩

/-- Two texts that start with one character start with lexemes that are alike. -/
theorem Lexeme.Alike.of_cons {c : Char} {offset : ℕ} {text text' : List Char} {l m : Lexeme} {ls ms : List Lexeme}
    (solid : Text.isBlank c = false) (first : lexemesFrom offset (c :: text) = l :: ls)
    (first' : lexemesFrom offset (c :: text') = m :: ms) : l.Alike m := by
  have proper := (laid_lexemesFrom (c :: text) offset).proper l (first ▸ List.mem_cons_self)
  have proper' := (laid_lexemesFrom (c :: text') offset).proper m (first' ▸ List.mem_cons_self)
  obtain ⟨_, _, same, at', head⟩ := exists_lexemesFrom_cons solid offset text
  obtain ⟨_, _, same', at'', head'⟩ := exists_lexemesFrom_cons solid offset text'
  obtain ⟨rfl, -⟩ := List.cons.inj (first.symm.trans same)
  obtain ⟨rfl, -⟩ := List.cons.inj (first'.symm.trans same')
  exact ⟨at''.trans at'.symm, head'.trans head.symm, by
    rw [proper'.isName_eq, proper.isName_eq, head', head]⟩

theorem Joins.of_alike {offset : ℕ} {front ls : List Lexeme} {l : Lexeme} (alike : ∀ m ∈ ls.head?, l.Alike m)
    (joins : Joins offset (front ++ ls)) (back : List Lexeme) : Joins offset (front ++ l :: back) := by
  obtain ⟨m, first, name, place⟩ := joins
  cases front with
  | nil => exact ⟨l, rfl, (alike m first).isName.symm.trans name, (alike m first).offset.symm.trans place⟩
  | cons x front => exact ⟨m, first, name, place⟩

/-- What a character in front of a text does to its lexemes. -/
def prepend (c : Char) (offset : ℕ) (ls : List Lexeme) : List Lexeme :=
  if Text.isBlank c then ls
  else if isNameChar c then attach c offset ls
  else ⟨.mark c, offset⟩ :: ls

theorem lexemesFrom_cons (c : Char) (offset : ℕ) (text : List Char) :
    lexemesFrom offset (c :: text) = prepend c offset (lexemesFrom (offset + c.utf8Size) text) := by
  rw [lexemesFrom, prepend]

/-- The first character of the lexeme `l` stands in the text. What comes before it has the lexemes `front`, and whatever
follows it, these go on with a lexeme like `l`. -/
def SplitsAt (text : List Char) (offset : ℕ) (front : List Lexeme) (l : Lexeme) : Prop :=
  ∃ before after, text = before ++ l.piece.head :: after ∧ l.offset = offset + width before ∧
    lexemesFrom offset before = front ∧
    ∀ rest, ∃ m ms, lexemesFrom offset (before ++ l.piece.head :: rest) = front ++ m :: ms ∧ l.Alike m

/-- It goes on to do so when a character is put in front of the text that leaves the lexemes from `l` on as they are. -/
theorem SplitsAt.cons {text : List Char} {c : Char} {offset : ℕ} {front front' : List Lexeme} {l : Lexeme}
    (splits : SplitsAt text (offset + c.utf8Size) front l)
    (leaves : ∀ ls : List Lexeme, (∀ m ∈ ls.head?, l.Alike m) → prepend c offset (front ++ ls) = front' ++ ls) :
    SplitsAt (c :: text) offset front' l := by
  obtain ⟨before, after, rfl, place, same, again⟩ := splits
  refine ⟨c :: before, after, rfl, by rw [place, width_cons, add_assoc], ?_, fun rest => ?_⟩
  · simpa [lexemesFrom_cons, same] using leaves [] (by simp)
  · obtain ⟨m, ms, split, alike⟩ := again rest
    refine ⟨m, ms, ?_, alike⟩
    rw [List.cons_append, lexemesFrom_cons, split]
    exact leaves (m :: ms) fun n first => Option.some.inj first ▸ alike

/-- **A text splits at each of its lexemes.** -/
theorem splitsAt_of_lexemesFrom : ∀ {text : List Char} {offset : ℕ} {front back : List Lexeme} {l : Lexeme},
    lexemesFrom offset text = front ++ l :: back → SplitsAt text offset front l
  | [], _, front, _, _, cut => by cases front <;> cases cut
  | c :: text, offset, front, back, l, cut => by
      by_cases blank : Text.isBlank c = true
      · rw [lexemesFrom_cons, prepend, if_pos blank] at cut
        exact (splitsAt_of_lexemesFrom cut).cons fun ls _ => if_pos blank
      have solid : Text.isBlank c = false := by simpa using blank
      cases front with
      | nil =>
        obtain ⟨m, ms, first, place, head⟩ := exists_lexemesFrom_cons solid offset text
        obtain ⟨rfl, -⟩ := List.cons.inj (cut.symm.trans first)
        refine ⟨[], text, by rw [head]; rfl, place, rfl, fun rest => ?_⟩
        obtain ⟨m', ms', first', _⟩ := exists_lexemesFrom_cons solid offset rest
        exact ⟨m', ms', head ▸ first', .of_cons solid first first'⟩
      | cons x front =>
        rw [lexemesFrom_cons, prepend, if_neg blank] at cut
        by_cases letter : isNameChar c = true
        · rw [if_pos letter] at cut
          by_cases joins : Joins (offset + c.utf8Size) (lexemesFrom (offset + c.utf8Size) text)
          · -- the character joins the name that is the first lexeme before `l`
            obtain ⟨chars, rest, whole, joined⟩ := attach_of_joins joins
            rw [joined] at cut
            obtain ⟨rfl, rfl⟩ := List.cons.inj cut
            refine (splitsAt_of_lexemesFrom (whole.trans (List.cons_append ..).symm)).cons fun ls _ => ?_
            rw [prepend, if_neg blank, if_pos letter]
            exact if_pos rfl
          · rw [attach_of_not_joins joins] at cut
            obtain ⟨rfl, later⟩ := List.cons.inj cut
            refine (splitsAt_of_lexemesFrom later).cons fun ls alike => ?_
            rw [later] at joins
            have apart : ¬ Joins (offset + c.utf8Size) (front ++ ls) := fun joins' => joins (joins'.of_alike alike back)
            rw [prepend, if_neg blank, if_pos letter, attach_of_not_joins apart]
            rfl
        · rw [if_neg letter] at cut
          obtain ⟨rfl, later⟩ := List.cons.inj cut
          refine (splitsAt_of_lexemesFrom later).cons fun ls _ => ?_
          rw [prepend, if_neg blank, if_neg letter]
          rfl

/-! ### Faults -/

theorem place_of_stepAfter {frames : List Frame} {t : TypeExpr} {l : Lexeme} {fault : Fault}
    (failed : stepAfter frames t l = .error fault) : fault.place? = some (l.piece.head, l.offset) := by
  unfold stepAfter at failed
  split at failed
  · obtain rfl := Except.error.inj failed
    rfl
  · split at failed
    · cases failed
    · cases failed
    · obtain rfl := Except.error.inj failed
      rfl

/-- A step is refused either for the place where its lexeme starts, or without a place and not for the end of the
text. -/
theorem place_of_step {q : Progress} {l : Lexeme} {fault : Fault} (failed : step q l = .error fault) :
    fault.place? = some (l.piece.head, l.offset) ∨ fault.place? = none ∧ fault.atEnd = false := by
  unfold step at failed
  split at failed
  · next d _ mark =>
    obtain rfl := Except.error.inj failed
    rw [mark]
    exact .inl rfl
  · split at failed
    · obtain rfl := Except.error.inj failed
      exact .inr ⟨rfl, rfl⟩
    · cases failed
  · split at failed
    · obtain rfl := Except.error.inj failed
      exact .inr ⟨rfl, rfl⟩
    · cases failed
  · exact .inl (place_of_stepAfter failed)
  · exact .inl (place_of_stepAfter failed)

theorem stepAfter_name (frames : List Frame) (t : TypeExpr) {chars chars' : List Char} (offset : ℕ)
    (head : (Piece.name chars').head = (Piece.name chars).head) :
    stepAfter frames t ⟨.name chars', offset⟩ = stepAfter frames t ⟨.name chars, offset⟩ := by
  cases frames with
  | nil => simp only [stepAfter, head]
  | cons => simp only [stepAfter, head]

/-- Such a fault does not depend on how the lexeme goes on. -/
theorem step_of_alike {q : Progress} {l m : Lexeme} {fault : Fault} (failed : step q l = .error fault)
    (placed : fault.place?.isSome = true) (alike : l.Alike m) : step q m = .error fault := by
  obtain ⟨frames, focus⟩ := q
  obtain ⟨piece, offset⟩ := l
  obtain ⟨piece', offset'⟩ := m
  obtain ⟨rfl, head, name⟩ := alike
  cases piece with
  | mark d =>
    cases piece' with
    | name => cases name
    | mark e =>
      obtain rfl : e = d := head
      exact failed
  | name chars =>
    cases piece' with
    | mark => cases name
    | name chars' =>
      cases focus with
      | head n => exact (stepAfter_name frames (concrete n) offset' head).trans failed
      | closed t => exact (stepAfter_name frames t offset' head).trans failed
      | start =>
        -- only a digit at the start of a name is refused here, and that fault has no place
        unfold step at failed
        dsimp only at failed
        split at failed
        · obtain rfl := Except.error.inj failed
          cases placed
        · cases failed

theorem exists_of_steps_eq_error : ∀ {ls : List Lexeme} {p : Progress} {fault : Fault}, steps p ls = .error fault →
    ∃ front l back q, ls = front ++ l :: back ∧ steps p front = .ok q ∧ step q l = .error fault
  | [], p, fault, failed => by cases failed
  | l :: ls, p, fault, failed => by
      unfold steps at failed
      split at failed
      · next q first =>
        obtain ⟨front, m, back, q', rfl, passed, last⟩ := exists_of_steps_eq_error failed
        exact ⟨l :: front, m, back, q', rfl, (steps_cons first).trans passed, last⟩
      · next fault' first => exact ⟨[], l, ls, p, rfl, rfl, first.trans failed⟩

theorem steps_append {q : Progress} : ∀ {front : List Lexeme} {p : Progress}, steps p front = .ok q →
    ∀ back : List Lexeme, steps p (front ++ back) = steps q back
  | [], p, passed, back => by
      obtain rfl := Except.ok.inj passed
      rfl
  | l :: front, p, passed, back => by
      unfold steps at passed
      split at passed
      · next p' first => exact (steps_cons first).trans (steps_append passed back)
      · cases passed

/-- At the end of the text no place is told. -/
theorem place_of_finish {q : Progress} {fault : Fault} (failed : finish q = .error fault) : fault.place? = none := by
  have after : ∀ {t}, finishAfter q.frames t = .error fault → fault.place? = none := fun failed => by
    unfold finishAfter at failed
    split at failed
    · cases failed
    · obtain rfl := Except.error.inj failed
      rfl
  unfold finish at failed
  split at failed
  · obtain rfl := Except.error.inj failed
    rfl
  · exact after failed
  · exact after failed

theorem ofString_eq_error {text : String} {e : TypeSyntaxError} (failed : ofString text = .error e) :
    ofLexemes (lexemes text) = .error e.fault := by
  unfold ofString at failed
  split at failed
  · cases failed
  · next fault refused =>
    obtain rfl := Except.error.inj failed
    exact refused

theorem utf8ByteSize_ofList (chars : List Char) : (String.ofList chars).utf8ByteSize = width chars := by
  induction chars with
  | nil => rfl
  | cons c chars ih =>
    rw [String.ofList_cons, String.utf8ByteSize_append, String.utf8ByteSize_singleton, ih, width_cons]

/-- Where the reader stops at a lexeme, what comes before it is viable, and with its first character no more. -/
theorem viable_before_place {text : String} {e : TypeSyntaxError} (failed : ofString text = .error e) {c : Char} {p : ℕ}
    (place : e.fault.place? = some (c, p)) :
    ∃ before after, text = before ++ (String.singleton c ++ after) ∧ before.utf8ByteSize = p ∧ Viable before ∧
      ¬ Viable (before ++ String.singleton c) := by
  have refused := ofString_eq_error failed
  unfold ofLexemes at refused
  split at refused
  · next q passed =>
    rw [place_of_finish refused] at place
    cases place
  · next fault stopped =>
    obtain rfl := Except.error.inj refused
    obtain ⟨front, l, back, q, cut, passed, last⟩ := exists_of_steps_eq_error stopped
    rcases place_of_step last with here | ⟨none, _⟩
    · obtain ⟨rfl, rfl⟩ := Prod.mk.inj (Option.some.inj (place.symm.trans here))
      obtain ⟨before, after, whole, start, same, again⟩ := splitsAt_of_lexemesFrom cut
      refine ⟨String.ofList before, String.ofList after, ?_, ?_, ?_, ?_⟩
      · rw [← String.toList_inj, whole]
        simp
      · rw [utf8ByteSize_ofList, start, Nat.zero_add]
      · refine viable_of_steps (q := q) ?_
        rwa [lexemes, String.toList_ofList, same]
      · rintro ⟨rest, t, ok⟩
        obtain ⟨m, ms, split, alike⟩ := again rest.toList
        have longer : lexemes (String.ofList before ++ String.singleton l.piece.head ++ rest) = front ++ m :: ms := by
          rw [lexemes, ← split]
          simp
        have stops : steps .initial (front ++ m :: ms) = .error e.fault := by
          rw [steps_append passed, steps, step_of_alike last (by rw [place]; rfl) alike]
        have read := ofString_eq_ok_iff.mp ok
        rw [TypeExpr.read, ofLexemes, longer, stops] at read
        cases read
    · rw [none] at place
      cases place

/-- What is refused at its end is viable. -/
theorem viable_of_atEnd {text : String} {e : TypeSyntaxError} (failed : ofString text = .error e)
    (ended : e.fault.atEnd = true) : Viable text := by
  have refused := ofString_eq_error failed
  unfold ofLexemes at refused
  split at refused
  · next q passed => exact viable_of_steps passed
  · next fault stopped =>
    obtain rfl := Except.error.inj refused
    obtain ⟨_, l, _, _, _, _, last⟩ := exists_of_steps_eq_error stopped
    have passed : e.fault.atEnd = false := (place_of_step last).elim Fault.atEnd_of_place And.right
    rw [passed] at ended
    cases ended

/-- **Errors point at the first offending character.** If the error tells a place, then the character that it names
stands there, what comes before it can be extended to a text that is read, and with that character it cannot. If the
error is that the text has ended, or that a family is still open then, the text itself can be extended to one that is
read. -/
theorem ofString_points {text : String} {e : TypeSyntaxError} (failed : ofString text = .error e) :
    (∀ c p, e.fault.place? = some (c, p) → (∃ words : String, e.message = words ++ s!"'{c}' at offset {p}") ∧
      ∃ before after, text = before ++ (String.singleton c ++ after) ∧ before.utf8ByteSize = p ∧ Viable before ∧
        ¬ Viable (before ++ String.singleton c)) ∧
    (e.fault.atEnd = true → Viable text) := by
  refine ⟨fun c p place => ⟨?_, viable_before_place failed place⟩, viable_of_atEnd failed⟩
  obtain ⟨words, message⟩ := Fault.message_of_place place
  refine ⟨s!"invalid type expression '{e.input}': " ++ words, ?_⟩
  calc e.message = s!"invalid type expression '{e.input}': " ++ e.fault.message := rfl
    _ = _ := by rw [message, ← String.append_assoc]

/-- Where a mark must follow a parameter, after letters of two bytes; and where the text ends before a parameter. -/
theorem ofString_points_secondName :
    ofString "Map<αβ, γ δ>" = .error ⟨"Map<αβ, γ δ>", .expectedSeparator 'δ' 13⟩ ∧
    (∃ before after, "Map<αβ, γ δ>" = before ++ (String.singleton 'δ' ++ after) ∧ before.utf8ByteSize = 13 ∧
      Viable before ∧ ¬ Viable (before ++ String.singleton 'δ')) ∧
    ofString "Map<αβ," = .error ⟨"Map<αβ,", .expectedName none⟩ ∧ Viable "Map<αβ," := by
  have second : ofString "Map<αβ, γ δ>" = .error ⟨"Map<αβ, γ δ>", .expectedSeparator 'δ' 13⟩ := by decide +kernel
  have ends : ofString "Map<αβ," = .error ⟨"Map<αβ,", .expectedName none⟩ := by decide +kernel
  exact ⟨second, ((ofString_points second).1 'δ' 13 rfl).2, ends, (ofString_points ends).2 rfl⟩

end TypeExpr

end ForeignBridge
