import ForeignBridge.Proofs.Grammar

/-! # Texts of type expressions

The text that an expression is read from is its own text with blanks added (`filter_of_read`). It nests as deep as the
expression, which can be seen from its angle brackets alone (`nesting`), so expressions with the same text are the same
(`eq_of_render_eq`). No text in which a `<` follows a `>` is read (`read_of_clash`). -/

namespace ForeignBridge

namespace TypeExpr

/-! ### The text of an applied family -/

/-- A family name or spelling, followed by parameters in angle brackets if there are any. -/
def applyText (head : String) (params : List String) : String :=
  if params = [] then head else head ++ "<" ++ ",".intercalate params ++ ">"

theorem applyText_nil (head : String) : applyText head [] = head := rfl

theorem applyText_cons (head p : String) (ps : List String) :
    applyText head (p :: ps) = head ++ "<" ++ ",".intercalate (p :: ps) ++ ">" := rfl

theorem join_tokensParams (p : TypeExpr) (ps : List TypeExpr) (mark : Token) :
    String.join ((tokensParams mark (p :: ps)).map Token.text) =
      mark.text ++ ",".intercalate ((p :: ps).map render) ++ ">" := by
  induction ps generalizing p mark with
  | nil => simp [tokensParams, render, Token.text, String.join_cons, String.join_append, String.append_assoc]
  | cons q ps ih =>
    have rest := ih q .comma
    rw [tokensParams, List.map_cons, String.join_cons, List.map_append, String.join_append, rest]
    simp [render, Token.text, String.append_assoc]

/-- The text of an expression is that of its name, applied to the texts of its parameters. -/
theorem render_mk (n : String) (ps : List TypeExpr) : render ⟨n, ps⟩ = applyText n (ps.map render) := by
  cases ps with
  | nil => simp [render, tokens, tokensParams, Token.text, applyText, String.join_cons]
  | cons p ps =>
    have params := join_tokensParams p ps .openAngle
    rw [render, tokens, List.map_cons, String.join_cons, params, List.map_cons, applyText_cons]
    simp [Token.text, String.append_assoc]

theorem render_concrete (n : String) : render (concrete n) = n := render_mk n []

/-! ### Blanks -/

theorem Spaced.filter {ts : List Token} {text : List Char} (spaced : Spaced ts text)
    (solid : ∀ t ∈ ts, t.piece.Proper) :
    text.filter (!Text.isBlank ·) = (String.join (ts.map Token.text)).toList := by
  induction spaced with
  | nil blank => simpa [IsGap] using blank
  | @cons gap text t ts blank later ih =>
    obtain ⟨here, rest⟩ := List.forall_mem_cons.mp solid
    have none : gap.filter (!Text.isBlank ·) = [] := by simpa [IsGap] using blank
    have all : ∀ c ∈ t.text.toList, Text.isBlank c = false := by
      cases t with
      | name n => exact fun c hc => isBlank_eq_false (here.2 c hc)
      | openAngle | comma | closeAngle =>
        intro c hc
        obtain rfl := List.mem_singleton.mp hc
        exact here.2
    have kept : t.text.toList.filter (!Text.isBlank ·) = t.text.toList := by simpa using all
    rw [List.filter_append, List.filter_append, none, kept, ih rest, List.map_cons, String.join_cons,
      String.toList_append, List.nil_append]

/-- **A text that is read is that of the expression, apart from blanks.** -/
theorem filter_of_read {text : String} {t : TypeExpr} (ok : read text = .ok t) :
    t.render.toList = text.toList.filter (!Text.isBlank ·) := by
  obtain ⟨fits, spaced⟩ := read_eq_ok_iff.mp ok
  exact (spaced.filter (readable_tokens fits.names).names).symm

/-! ### Nesting -/

/-- The most `<` that are open at once from here on, while `level` of them are open. -/
def deepest : ℕ → List Char → ℕ
  | level, [] => level
  | level, c :: rest =>
    max level (deepest (if c = '<' then level + 1 else if c = '>' then level - 1 else level) rest)

/-- How deep the angle brackets of a text nest. -/
def nesting (text : String) : ℕ := deepest 0 text.toList

theorem le_deepest (level : ℕ) (text : List Char) : level ≤ deepest level text := by
  cases text with
  | nil => exact le_rfl
  | cons c rest => exact le_max_left _ _

theorem deepest_open (level : ℕ) (rest : List Char) :
    deepest level ("<".toList ++ rest) = max level (deepest (level + 1) rest) := rfl

theorem deepest_close (level : ℕ) (rest : List Char) :
    deepest (level + 1) (">".toList ++ rest) = max (level + 1) (deepest level rest) := rfl

theorem deepest_comma (level : ℕ) (rest : List Char) :
    deepest level (",".toList ++ rest) = max level (deepest level rest) := rfl

/-- Characters that are no angle brackets do not count. -/
theorem deepest_append (level : ℕ) {front : List Char} (plain : ∀ c ∈ front, c ≠ '<' ∧ c ≠ '>') (rest : List Char) :
    deepest level (front ++ rest) = deepest level rest := by
  induction front with
  | nil => rfl
  | cons c front ih =>
    obtain ⟨⟨noOpen, noClose⟩, later⟩ := List.forall_mem_cons.mp plain
    rw [List.cons_append, deepest, if_neg noOpen, if_neg noClose, ih later]
    exact max_eq_right (le_deepest level rest)

theorem deepest_filter (level : ℕ) (text : List Char) :
    deepest level (text.filter (!Text.isBlank ·)) = deepest level text := by
  induction text generalizing level with
  | nil => rfl
  | cons c rest ih =>
    cases blank : Text.isBlank c with
    | false =>
      rw [List.filter_cons_of_pos (by simpa using blank), deepest, deepest, ih]
    | true =>
      have plain : ∀ d ∈ [c], d ≠ '<' ∧ d ≠ '>' := by
        rintro d (_ | ⟨_, ⟨⟩⟩)
        constructor <;> rintro rfl <;> revert blank <;> decide
      rw [List.filter_cons_of_neg (by simpa using blank), ih]
      exact (deepest_append level plain rest).symm

theorem IsName.plain {n : String} (name : IsName n) : ∀ c ∈ n.toList, c ≠ '<' ∧ c ≠ '>' := by
  intro c hc
  have letter := isNameChar_iff.mpr (name.letters c hc)
  constructor <;> rintro rfl <;> revert letter <;> decide

mutual

/-- An expression adds its depth to the level at which it stands. -/
theorem deepest_tokens : ∀ (t : TypeExpr) (level : ℕ) (rest : List Char), (∀ n ∈ t.names, IsName n) →
    deepest level ((String.join (t.tokens.map Token.text)).toList ++ rest) = max (level + t.depth) (deepest level rest)
  | ⟨n, []⟩, level, rest, names => by
      rw [TypeExpr.names, List.forall_mem_cons] at names
      have before := le_deepest level rest
      have here := deepest_append level names.1.plain rest
      simpa [tokens, tokensParams, Token.text, String.join_cons, depth, depthParams, before] using here
  | ⟨n, p :: ps⟩, level, rest, names => by
      simp only [TypeExpr.names, namesParams, List.forall_mem_cons, List.forall_mem_append] at names
      obtain ⟨name, first, others⟩ := names
      have inner := fun rest => deepest_tokens p (level + 1) rest first
      have later := deepest_tokensParams ps level rest others
      have here := fun rest => deepest_append level name.plain rest
      simp only [tokens, tokensParams, List.map_cons, List.map_append, String.join_cons, String.join_append,
        String.toList_append, Token.text, List.append_assoc, here, deepest_open, inner,
        later, depth, depthParams]
      omega

/-- The further parameters of a family, inside its angle brackets. -/
theorem deepest_tokensParams : ∀ (ps : List TypeExpr) (level : ℕ) (rest : List Char), (∀ n ∈ namesParams ps, IsName n) →
    deepest (level + 1) ((String.join ((tokensParams .comma ps).map Token.text)).toList ++ rest) =
      max (level + 1) (max (level + depthParams ps) (deepest level rest))
  | [], level, rest, _ => by
      have before := le_deepest level rest
      have here := deepest_close level rest
      simpa [tokensParams, Token.text, String.join_cons, depthParams, before] using here
  | p :: ps, level, rest, names => by
      simp only [namesParams, List.forall_mem_append] at names
      have inner := fun rest => deepest_tokens p (level + 1) rest names.1
      have later := deepest_tokensParams ps level rest names.2
      simp only [tokensParams, List.map_cons, List.map_append, String.join_cons, String.join_append,
        String.toList_append, Token.text, List.append_assoc, deepest_comma, inner, later, depthParams]
      omega

end

/-- **The text of an expression nests as deep as the expression.** -/
theorem nesting_render {t : TypeExpr} (names : ∀ n ∈ t.names, IsName n) : nesting t.render = t.depth := by
  have whole := deepest_tokens t 0 [] names
  rw [List.append_nil, Nat.zero_add] at whole
  exact whole.trans (Nat.max_zero _)

/-- So does the text that it is read from. -/
theorem nesting_of_read {text : String} {t : TypeExpr} (ok : read text = .ok t) : nesting text = t.depth := by
  rw [← nesting_render (read_eq_ok_iff.mp ok).1.names, nesting, nesting, filter_of_read ok, deepest_filter]

/-- An expression of well-formed names is read from its own text, unless that nests too deep. -/
theorem read_render {t : TypeExpr} (names : ∀ n ∈ t.names, IsName n) (within : nesting t.render ≤ maxDepth) :
    read t.render = .ok t := by
  refine read_eq_ok_iff.mpr ⟨⟨?_, names⟩, spaced_render t.tokens⟩
  rwa [Nat.zero_add, ← nesting_render names]

/-- No text that nests too deep is read. -/
theorem read_of_deep {text : String} (deep : maxDepth < nesting text) (t : TypeExpr) : read text ≠ .ok t := by
  intro ok
  have depth := (read_eq_ok_iff.mp ok).1.depth
  rw [nesting_of_read ok] at deep
  omega

/-- Expressions of one text are the same, if it can be read. -/
theorem eq_of_render_eq {t u : TypeExpr} (names : ∀ n ∈ t.names, IsName n) {text : String} (ok : read text = .ok u)
    (same : u.render = t.render) : u = t := by
  have fits := (read_eq_ok_iff.mp ok).1
  have within : nesting u.render ≤ maxDepth := by
    rw [nesting_render fits.names]
    simpa using fits.depth
  have back := read_render fits.names within
  rw [same] at within back
  exact Except.ok.inj (back.symm.trans (read_render names within))

/-! ### Clashing brackets -/

/-- Somewhere in the text a `<` comes right after a `>`. -/
def Clash (text : String) : Prop := ['>', '<'] <:+: text.toList

theorem infix_intercalate {p : String} : ∀ {ps : List String}, p ∈ ps → p.toList <:+: (",".intercalate ps).toList
  | [q], given => by
      obtain rfl := List.mem_singleton.mp given
      rw [String.intercalate_singleton]
  | q :: r :: ps, given => by
      rw [String.intercalate_cons_cons, String.toList_append, String.toList_append]
      rcases List.mem_cons.mp given with rfl | later
      · exact (List.prefix_append _ _).isInfix.trans (List.prefix_append _ _).isInfix
      · exact (infix_intercalate later).trans (List.suffix_append _ _).isInfix

/-- Parameters after what ends with a `>` clash with it. -/
theorem clash_applyText {head : String} (closes : ['>'] <:+ head.toList) {ps : List String} (some : ps ≠ []) :
    Clash (applyText head ps) := by
  obtain ⟨front, whole⟩ := closes
  rw [Clash, applyText, if_neg some]
  exact ⟨front, (",".intercalate ps ++ ">").toList, by simp [← whole]⟩

/-- A clash in a parameter is one of the whole text. -/
theorem Clash.applyText {p : String} (clash : Clash p) {ps : List String} (given : p ∈ ps) (head : String) :
    Clash (applyText head ps) := by
  rw [Clash, TypeExpr.applyText, if_neg (List.ne_nil_of_mem given)]
  refine clash.trans ((infix_intercalate given).trans ⟨(head ++ "<").toList, ">".toList, ?_⟩)
  simp

/-- The text of an expression with parameters ends with a `>`. -/
theorem closes_of_isParametric {t : TypeExpr} (applied : t.isParametric = true) : ['>'] <:+ t.render.toList := by
  obtain ⟨n, ps⟩ := t
  cases ps with
  | nil => cases applied
  | cons p ps =>
    rw [render_mk, List.map_cons, applyText_cons, String.toList_append]
    exact List.suffix_append _ _

/-- What comes before a mark leaves the lexemes from there on as they are. -/
theorem exists_lexemesFrom_append {c : Char} (letter : isNameChar c = false) (solid : Text.isBlank c = false)
    (text : List Char) : ∀ (front : List Char) (offset : ℕ), ∃ (ls : List Lexeme) (start : ℕ),
      lexemesFrom offset (front ++ c :: text) = ls ++ lexemesFrom start (c :: text)
  | [], offset => ⟨[], offset, rfl⟩
  | d :: front, offset => by
      obtain ⟨ls, start, later⟩ := exists_lexemesFrom_append letter solid text front (offset + d.utf8Size)
      rw [List.cons_append, lexemesFrom, later]
      split
      · exact ⟨ls, start, rfl⟩
      · split
        · cases ls with
          | nil => exact ⟨[⟨.name [d], offset⟩], start, by simp [lexemesFrom, letter, solid, attach]⟩
          | cons l ls =>
            obtain ⟨piece, p⟩ := l
            cases piece with
            | mark e => exact ⟨⟨.name [d], offset⟩ :: ⟨.mark e, p⟩ :: ls, start, rfl⟩
            | name chars =>
              simp only [List.cons_append, attach]
              split
              · exact ⟨⟨.name (d :: chars), offset⟩ :: ls, start, rfl⟩
              · exact ⟨⟨.name [d], offset⟩ :: ⟨.name chars, p⟩ :: ls, start, rfl⟩
        · exact ⟨⟨.mark d, offset⟩ :: ls, start, rfl⟩

/-- After a `>` the reader takes no `<`. -/
theorem steps_of_clash {close next : Lexeme} (closes : close.piece = .mark '>') (opens : next.piece = .mark '<')
    (rest : List Lexeme) : ∀ (ls : List Lexeme) (p q : Progress), steps p (ls ++ close :: next :: rest) ≠ .ok q
  | [], p, q => by
      intro ok
      rw [List.nil_append, steps] at ok
      split at ok
      · next p' first =>
        rw [steps] at ok
        split at ok
        · next p'' second =>
          obtain ⟨_, _, piece, _⟩ | ⟨_, _, piece, _⟩ | ⟨_, _, _, _, _, piece, _⟩ | ⟨t, f, outer, _, _, _, rfl⟩ :=
            step_cases first
          · cases closes.symm.trans piece
          · cases closes.symm.trans piece
          · cases closes.symm.trans piece
          · -- an expression has just ended, and only `,` and `>` may follow
            obtain ⟨_, _, piece, _⟩ | ⟨_, focus, _⟩ | ⟨_, _, _, _, _, piece, _⟩ | ⟨_, _, _, _, _, piece, _⟩ :=
              step_cases second
            · cases opens.symm.trans piece
            · cases focus
            · cases opens.symm.trans piece
            · cases opens.symm.trans piece
        · cases ok
      · cases ok
  | l :: ls, p, q => by
      intro ok
      rw [List.cons_append, steps] at ok
      split at ok
      · next p' _ => exact steps_of_clash closes opens rest ls p' q ok
      · cases ok

/-- **A text in which a `<` comes right after a `>` is not read.** -/
theorem read_of_clash {text : String} (clash : Clash text) (t : TypeExpr) : read text ≠ .ok t := by
  intro ok
  obtain ⟨front, back, whole⟩ := clash
  obtain ⟨ls, start, split⟩ := exists_lexemesFrom_append (c := '>') (by decide +kernel) (by decide +kernel)
    ('<' :: back) front 0
  have marks : lexemesFrom start ('>' :: '<' :: back) =
      ⟨.mark '>', start⟩ :: ⟨.mark '<', start + 1⟩ :: lexemesFrom (start + 2) back := rfl
  rw [List.append_assoc] at whole
  have pieces : lexemes text = _ := (congrArg (lexemesFrom 0) whole.symm).trans (split.trans (congrArg (ls ++ ·) marks))
  rw [read, ofLexemes, pieces] at ok
  split at ok
  · next p passed => exact steps_of_clash rfl rfl _ ls _ p passed
  · cases ok

end TypeExpr

end ForeignBridge
