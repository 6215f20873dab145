import ForeignBridge.Proofs.Lexemes
import ForeignBridge.Proofs.TypeOrder
import ForeignBridge.TypeExpr.Reader

/-! # The grammar of type expressions

The reader goes over lexemes with a stack of open families. What it has read so far is again a sequence of tokens
(`Progress.tokens`), which grows by the piece of each lexeme (`step_tokens`), and whatever is on the stack fits below
the depth limit (`Progress.Good`). The other way round, the tokens of an expression that fits lead the reader over it
(`steps_tokens`, by induction on the expression).

So a text is read as a type expression exactly if it consists of the tokens of that expression and of blanks, its names
are well formed and it is not too deep (`ofString_eq_ok_iff_spaced`). -/

namespace ForeignBridge

namespace TypeExpr

/-- A name that may stand in a type expression: letters and digits of any script, `_` and `:`, and no ASCII digit at the
start. -/
structure IsName (n : String) : Prop where
  nonempty : n ≠ ""
  letters : ∀ c ∈ n.toList, Text.isAlphanumeric c = true ∨ c = '_' ∨ c = ':'
  head : ∀ c, n.toList.head? = some c → c.isDigit = false

/-- The expression may stand below `level` open families. -/
structure Fits (level : ℕ) (t : TypeExpr) : Prop where
  depth : level + t.depth ≤ maxDepth
  names : ∀ n ∈ t.names, IsName n

theorem isNameChar_iff {c : Char} : isNameChar c = true ↔ Text.isAlphanumeric c = true ∨ c = '_' ∨ c = ':' := by
  simp [isNameChar, or_assoc]

theorem isName_iff {n : String} :
    IsName n ↔ (Token.name n).piece.Proper ∧ startsWithDigit n.toList = false := by
  have empty : n ≠ "" ↔ n.toList ≠ [] := by simp
  constructor
  · intro name
    refine ⟨⟨empty.mp name.nonempty, fun c hc => isNameChar_iff.mpr (name.letters c hc)⟩, ?_⟩
    cases chars : n.toList with
    | nil => rfl
    | cons c rest => exact name.head c (by rw [chars]; rfl)
  · rintro ⟨⟨nonempty, letters⟩, digit⟩
    refine ⟨empty.mpr nonempty, fun c hc => isNameChar_iff.mp (letters c hc), fun c hc => ?_⟩
    obtain ⟨rest, chars⟩ := List.head?_eq_some_iff.mp hc
    rwa [chars] at digit

/-! ### Expressions that fit -/

theorem mem_namesParams {n : String} {ps : List TypeExpr} : n ∈ namesParams ps ↔ ∃ p ∈ ps, n ∈ p.names := by
  induction ps with
  | nil => simp [namesParams]
  | cons q ps ih => simp [namesParams, ih]

/-- An expression fits if its name is well formed and its parameters fit one level further in. -/
theorem fits_iff {level : ℕ} {n : String} {ps : List TypeExpr} :
    Fits level ⟨n, ps⟩ ↔ IsName n ∧ level ≤ maxDepth ∧ ∀ p ∈ ps, Fits (level + 1) p := by
  constructor
  · rintro ⟨depth, names⟩
    rw [TypeExpr.depth] at depth
    refine ⟨names n (by simp [TypeExpr.names]), by omega, fun p hp => ⟨?_, fun m hm => names m ?_⟩⟩
    · have := depthParams_le_iff.mp le_rfl p hp
      omega
    · rw [TypeExpr.names, List.mem_cons]
      exact .inr (mem_namesParams.mpr ⟨p, hp, hm⟩)
  · rintro ⟨name, within, params⟩
    constructor
    · have below : depthParams ps ≤ maxDepth - level := depthParams_le_iff.mpr fun p hp => by
        have := (params p hp).depth
        omega
      rw [TypeExpr.depth]
      omega
    · intro m hm
      rw [TypeExpr.names, List.mem_cons, mem_namesParams] at hm
      obtain rfl | ⟨p, hp, hm⟩ := hm
      · exact name
      · exact (params p hp).names m hm

/-! ### The tokens of an expression -/

mutual

theorem names_of_tokens {n : String} : ∀ t : TypeExpr, .name n ∈ t.tokens → n ∈ t.names
  | ⟨m, ps⟩, h => by
      rw [tokens, List.mem_cons] at h
      rw [names, List.mem_cons]
      exact h.imp (fun e => Token.name.inj e) (names_of_tokensParams ps (by simp))

theorem names_of_tokensParams {n : String} {mark : Token} : ∀ ps : List TypeExpr, mark ≠ .name n →
    .name n ∈ tokensParams mark ps → n ∈ namesParams ps
  | [], _, h => by
      unfold tokensParams at h
      split at h <;> simp at h
  | p :: ps, other, h => by
      rw [tokensParams, List.mem_cons, List.mem_append] at h
      rw [namesParams, List.mem_append]
      rcases h with e | h | h
      · exact absurd e.symm other
      · exact .inl (names_of_tokens p h)
      · exact .inr (names_of_tokensParams ps (by simp) h)

end

/-- No name follows a name. -/
def Apart (ts : List Token) : Prop := ts.IsChain fun a b => (a.isName && b.isName) = false

/-- Tokens that may follow an expression: no name stands at their start. -/
def Follows (ts : List Token) : Prop := Apart ts ∧ ∀ t ∈ ts.head?, t.isName = false

theorem Follows.cons {t : Token} {ts : List Token} (mark : t.isName = false) (apart : Apart ts) :
    Follows (t :: ts) := by
  refine ⟨List.isChain_cons.mpr ⟨fun u _ => by rw [mark, Bool.false_and], apart⟩, fun u hu => ?_⟩
  obtain rfl := Option.some.inj hu
  exact mark

mutual

theorem apart_tokens : ∀ (t : TypeExpr) {rest : List Token}, Follows rest → Apart (t.tokens ++ rest)
  | ⟨n, ps⟩, rest, follows => by
      obtain ⟨apart, head⟩ : Follows (tokensParams .openAngle ps ++ rest) := follows_tokensParams ps rfl follows
      rw [tokens, List.cons_append]
      exact List.isChain_cons.mpr ⟨fun u hu => by rw [head u hu, Bool.and_false], apart⟩

theorem follows_tokensParams {mark : Token} : ∀ (ps : List TypeExpr) {rest : List Token}, mark.isName = false →
    Follows rest → Follows (tokensParams mark ps ++ rest)
  | [], rest, _, follows => by
      unfold tokensParams
      split
      · exact follows
      · exact .cons rfl follows.1
  | p :: ps, rest, noName, follows => by
      rw [tokensParams, List.cons_append, List.append_assoc]
      exact .cons noName (apart_tokens p (follows_tokensParams ps rfl follows))

end

/-- The tokens of an expression with well-formed names can be told apart in a text. -/
theorem readable_tokens {t : TypeExpr} (names : ∀ n ∈ t.names, IsName n) : Readable t.tokens where
  apart := by
    have apart : Apart (t.tokens ++ []) := apart_tokens t ⟨.nil, by simp⟩
    rwa [List.append_nil] at apart
  names u hu := by
    cases u with
    | name n => exact (isName_iff.mp (names n (names_of_tokens t hu))).1
    | openAngle | comma | closeAngle => exact Token.proper_piece rfl

/-! ### What the reader has read -/

/-- Parameters that are followed by another one. -/
def separated (ps : List TypeExpr) : List Token := ps.flatMap fun p => p.tokens ++ [.comma]

/-- The tokens of an open family. -/
def Frame.tokens (f : Frame) : List Token := .name f.name :: .openAngle :: separated f.params.reverse

/-- The tokens of what has just been seen. -/
def Focus.tokens : Focus → List Token
  | .start => []
  | .head n => [.name n]
  | .closed t => t.tokens

/-- The tokens that the reader has gone over. -/
def Progress.tokens (p : Progress) : List Token := p.frames.reverse.flatMap Frame.tokens ++ p.focus.tokens

/-- The open families are well formed and leave their parameters within the depth limit. -/
def FramesFit : List Frame → Prop
  | [] => True
  | f :: outer =>
    outer.length < maxDepth ∧ IsName f.name ∧ (∀ t ∈ f.params, Fits (outer.length + 1) t) ∧ FramesFit outer

/-- The expression that has just been seen, if one could end there. -/
def Focus.seen : Focus → Option TypeExpr
  | .start => none
  | .head n => some (concrete n)
  | .closed t => some t

/-- Everything that the reader keeps fits below the families that are open around it. -/
structure Progress.Good (p : Progress) : Prop where
  frames : FramesFit p.frames
  focus : ∀ t ∈ p.focus.seen, Fits p.frames.length t

theorem FramesFit.length_le {frames : List Frame} (fit : FramesFit frames) : frames.length ≤ maxDepth := by
  cases frames with
  | nil => exact Nat.zero_le _
  | cons f outer => exact fit.1

theorem tokens_concrete (n : String) : (concrete n).tokens = [.name n] := by
  simp [concrete, tokens, tokensParams]

theorem tokensParams_separated (t : TypeExpr) : ∀ (ps : List TypeExpr) (mark : Token),
    mark :: (separated ps ++ (t.tokens ++ [.closeAngle])) = tokensParams mark (ps ++ [t])
  | [], mark => by simp [separated, tokensParams]
  | p :: ps, mark => by
      have rest := tokensParams_separated t ps .comma
      rw [List.cons_append, tokensParams, ← rest]
      simp [separated]

/-- The innermost family comes last. -/
theorem tokens_inner (f : Frame) (outer : List Frame) (focus : Focus) :
    Progress.tokens ⟨f :: outer, focus⟩ = Progress.tokens ⟨outer, .start⟩ ++ (f.tokens ++ focus.tokens) := by
  simp [Progress.tokens, Focus.tokens]

/-- A `>` completes the innermost family. -/
theorem tokens_close (f : Frame) (t : TypeExpr) :
    f.tokens ++ (t.tokens ++ [.closeAngle]) = tokens ⟨f.name, (t :: f.params).reverse⟩ := by
  rw [tokens, List.reverse_cons, ← tokensParams_separated]
  rfl

/-- A `,` adds a parameter to the innermost family. -/
theorem tokens_comma (f : Frame) (t : TypeExpr) :
    f.tokens ++ (t.tokens ++ [.comma]) = Frame.tokens ⟨f.name, t :: f.params⟩ := by
  simp [Frame.tokens, separated]

/-- The tokens of an expression that has just been seen. -/
theorem Focus.tokens_of_seen {focus : Focus} {t : TypeExpr} (seen : focus.seen = some t) : focus.tokens = t.tokens := by
  cases focus with
  | start => cases seen
  | head n =>
    obtain rfl := Option.some.inj seen
    exact (tokens_concrete n).symm
  | closed u =>
    obtain rfl := Option.some.inj seen
    rfl

/-! ### One lexeme -/

section steps

variable {p q : Progress} {l : Lexeme}

/-- What a step may do: it enters a family, takes a name, or goes on after a complete expression. -/
theorem step_cases (ok : step p l = .ok q) :
    (∃ chars, p.focus = .start ∧ l.piece = .name chars ∧ startsWithDigit chars = false ∧
      q = ⟨p.frames, .head (String.ofList chars)⟩) ∨
    (∃ n, p.focus = .head n ∧ l.piece = .mark '<' ∧ p.frames.length < maxDepth ∧
      q = ⟨⟨n, []⟩ :: p.frames, .start⟩) ∨
    (∃ t f outer, p.focus.seen = some t ∧ p.frames = f :: outer ∧ l.piece = .mark ',' ∧
      q = ⟨⟨f.name, t :: f.params⟩ :: outer, .start⟩) ∨
    (∃ t f outer, p.focus.seen = some t ∧ p.frames = f :: outer ∧ l.piece = .mark '>' ∧
      q = ⟨outer, .closed ⟨f.name, (t :: f.params).reverse⟩⟩) := by
  have after : ∀ {t}, p.focus.seen = some t → stepAfter p.frames t l = .ok q →
      (∃ t f outer, p.focus.seen = some t ∧ p.frames = f :: outer ∧ l.piece = .mark ',' ∧
        q = ⟨⟨f.name, t :: f.params⟩ :: outer, .start⟩) ∨
      (∃ t f outer, p.focus.seen = some t ∧ p.frames = f :: outer ∧ l.piece = .mark '>' ∧
        q = ⟨outer, .closed ⟨f.name, (t :: f.params).reverse⟩⟩) := by
    intro t seen ok
    unfold stepAfter at ok
    split at ok
    · cases ok
    · next f outer open' =>
      split at ok
      · next mark => exact .inl ⟨t, f, outer, seen, open', mark, (Except.ok.inj ok).symm⟩
      · next mark => exact .inr ⟨t, f, outer, seen, open', mark, (Except.ok.inj ok).symm⟩
      · cases ok
  unfold step at ok
  split at ok
  · cases ok
  · next chars start name =>
    split at ok
    · cases ok
    · next digit =>
      exact .inl ⟨chars, start, name, by simpa using digit, (Except.ok.inj ok).symm⟩
  · next n head mark =>
    split at ok
    · cases ok
    · next room => exact .inr (.inl ⟨n, head, mark, by omega, (Except.ok.inj ok).symm⟩)
  · next n head _ => exact .inr (.inr (after (by rw [head]; rfl) ok))
  · next t closed => exact .inr (.inr (after (by rw [closed]; rfl) ok))

/-- **Each step goes over one more piece.** -/
theorem step_tokens (ok : step p l = .ok q) : q.tokens.map Token.piece = p.tokens.map Token.piece ++ [l.piece] := by
  obtain ⟨frames, focus⟩ := p
  obtain ⟨piece, offset⟩ := l
  obtain ⟨chars, rfl, rfl, _, rfl⟩ | ⟨n, rfl, rfl, _, rfl⟩ | ⟨t, f, outer, seen, rfl, rfl, rfl⟩ |
    ⟨t, f, outer, seen, rfl, rfl, rfl⟩ := step_cases ok
  · simp [Progress.tokens, Focus.tokens, Token.piece]
  · simp [Progress.tokens, Focus.tokens, Frame.tokens, separated, Token.piece]
  · rw [tokens_inner, tokens_inner, ← tokens_comma, Focus.tokens_of_seen seen]
    simp [Token.piece, Focus.tokens]
  · have closed := (tokens_close f t).symm
    rw [tokens_inner, Focus.tokens_of_seen seen]
    simp only [Progress.tokens, Focus.tokens, closed]
    simp [Token.piece]

/-- **Each step keeps within the depth limit.** -/
theorem step_good (good : p.Good) (proper : l.piece.Proper) (ok : step p l = .ok q) : q.Good := by
  obtain ⟨frames, focus⟩ := p
  obtain ⟨fit, complete⟩ := good
  obtain ⟨chars, rfl, name, digit, rfl⟩ | ⟨n, rfl, _, room, rfl⟩ | ⟨t, f, outer, seen, rfl, _, rfl⟩ |
    ⟨t, f, outer, seen, rfl, _, rfl⟩ := step_cases ok
  · refine ⟨fit, fun t ht => ?_⟩
    obtain rfl := Option.some.inj ht
    refine fits_iff.mpr ⟨isName_iff.mpr ?_, fit.length_le, by simp⟩
    rw [name] at proper
    simpa [Token.piece] using And.intro proper digit
  · have head := (fits_iff.mp (complete (concrete n) rfl)).1
    exact ⟨⟨room, head, by simp, fit⟩, fun t ht => by cases ht⟩
  · obtain ⟨room, name, params, rest⟩ := fit
    refine ⟨⟨room, name, ?_, rest⟩, fun t ht => by cases ht⟩
    exact List.forall_mem_cons.mpr ⟨complete t seen, params⟩
  · obtain ⟨room, name, params, rest⟩ := fit
    refine ⟨rest, fun u hu => ?_⟩
    obtain rfl := Option.some.inj hu
    refine fits_iff.mpr ⟨name, room.le, fun v hv => ?_⟩
    rw [List.mem_reverse] at hv
    exact List.forall_mem_cons.mpr ⟨complete t seen, params⟩ v hv

end steps

/-! ### Runs of the reader -/

theorem good_initial : Progress.initial.Good := ⟨trivial, fun t ht => by cases ht⟩

theorem steps_sound : ∀ {ls : List Lexeme} {p q : Progress}, (∀ l ∈ ls, l.piece.Proper) → p.Good →
    steps p ls = .ok q → q.tokens.map Token.piece = p.tokens.map Token.piece ++ ls.map Lexeme.piece ∧ q.Good
  | [], p, q, _, good, ok => by
      obtain rfl := Except.ok.inj ok
      exact ⟨by simp, good⟩
  | l :: ls, p, q, proper, good, ok => by
      unfold steps at ok
      split at ok
      · next p' first =>
        have good' := step_good good (proper l List.mem_cons_self) first
        obtain ⟨rest, last⟩ := steps_sound (fun m hm => proper m (List.mem_cons_of_mem _ hm)) good' ok
        rw [step_tokens first, List.append_assoc] at rest
        exact ⟨rest, last⟩
      · cases ok

theorem finish_eq_ok {p : Progress} {t : TypeExpr} (ok : finish p = .ok t) : p.frames = [] ∧ p.focus.seen = some t := by
  have after : ∀ u, finishAfter p.frames u = .ok t → p.frames = [] ∧ u = t := by
    intro u ok
    unfold finishAfter at ok
    split at ok
    · next none => exact ⟨none, Except.ok.inj ok⟩
    · cases ok
  unfold finish at ok
  split at ok
  · cases ok
  · next n head =>
    obtain ⟨none, rfl⟩ := after _ ok
    exact ⟨none, by rw [head]; rfl⟩
  · next u closed =>
    obtain ⟨none, rfl⟩ := after _ ok
    exact ⟨none, by rw [closed]; rfl⟩

/-- What is read fits, and its tokens are the pieces of the text. -/
theorem ofLexemes_sound {ls : List Lexeme} {t : TypeExpr} (proper : ∀ l ∈ ls, l.piece.Proper)
    (ok : ofLexemes ls = .ok t) : ls.map Lexeme.piece = t.tokens.map Token.piece ∧ Fits 0 t := by
  unfold ofLexemes at ok
  split at ok
  · next p passed =>
    obtain ⟨pieces, good⟩ := steps_sound proper good_initial passed
    obtain ⟨frames, focus⟩ := p
    obtain ⟨rfl, seen⟩ := finish_eq_ok ok
    refine ⟨?_, good.focus t seen⟩
    have read : Progress.tokens ⟨[], focus⟩ = t.tokens := Focus.tokens_of_seen seen
    rw [read] at pieces
    exact pieces.symm
  · cases ok

/-- What the reader has seen after an expression. -/
def Focus.after (t : TypeExpr) : Focus := if t.params = [] then .head t.name else .closed t

theorem seen_after (t : TypeExpr) : (Focus.after t).seen = some t := by
  obtain ⟨n, ps⟩ := t
  unfold Focus.after
  split
  · next none =>
    obtain rfl : ps = [] := none
    rfl
  · rfl

/-- After an expression only `<` is taken to belong to it. -/
theorem step_after {frames : List Frame} {t : TypeExpr} {l : Lexeme} (other : l.piece ≠ .mark '<') :
    step ⟨frames, .after t⟩ l = stepAfter frames t l := by
  have seen := seen_after t
  unfold step
  cases focus : Focus.after t with
  | start =>
    rw [focus] at seen
    cases seen
  | head n =>
    rw [focus] at seen
    obtain rfl := Option.some.inj seen
    split <;> simp_all
  | closed u =>
    rw [focus] at seen
    obtain rfl := Option.some.inj seen
    rfl

theorem steps_cons {p q : Progress} {l : Lexeme} {ls : List Lexeme} (first : step p l = .ok q) :
    steps p (l :: ls) = steps q ls := by
  rw [steps, first]

/-- The lexemes of a list that begins with a token. -/
theorem exists_of_map_piece {ls : List Lexeme} {t : Token} {ts : List Token}
    (same : ls.map Lexeme.piece = (t :: ts).map Token.piece) :
    ∃ l rest, ls = l :: rest ∧ l.piece = t.piece ∧ rest.map Lexeme.piece = ts.map Token.piece := by
  cases ls with
  | nil => cases same
  | cons l rest =>
    obtain ⟨head, tail⟩ := List.cons.inj same
    exact ⟨l, rest, rfl, head, tail⟩

theorem exists_of_map_append {ls : List Lexeme} {ts us : List Token}
    (same : ls.map Lexeme.piece = (ts ++ us).map Token.piece) :
    ∃ ms ns, ls = ms ++ ns ∧ ms.map Lexeme.piece = ts.map Token.piece ∧ ns.map Lexeme.piece = us.map Token.piece := by
  rw [List.map_append] at same
  obtain ⟨ms, ns, rfl, first, second⟩ := List.map_eq_append_iff.mp same
  exact ⟨ms, ns, rfl, first, second⟩

mutual

/-- **The tokens of an expression that fits lead the reader over it.** -/
theorem steps_tokens : ∀ (t : TypeExpr) {frames : List Frame} {ls rest : List Lexeme}, Fits frames.length t →
    ls.map Lexeme.piece = t.tokens.map Token.piece →
    steps ⟨frames, .start⟩ (ls ++ rest) = steps ⟨frames, .after t⟩ rest
  | ⟨n, []⟩, frames, ls, rest, fits, same => by
      rw [tokens] at same
      obtain ⟨l, ls, rfl, head, tail⟩ := exists_of_map_piece same
      obtain rfl : ls = [] := by simpa [tokensParams] using tail
      obtain ⟨name, _, _⟩ := fits_iff.mp fits
      have digit := (isName_iff.mp name).2
      apply steps_cons
      simp [step, head, Token.piece, digit, Focus.after]
  | ⟨n, p :: ps⟩, frames, ls, rest, fits, same => by
      rw [tokens, tokensParams] at same
      obtain ⟨l, ls, rfl, head, tail⟩ := exists_of_map_piece same
      obtain ⟨mark, ls, rfl, opened, tail⟩ := exists_of_map_piece tail
      obtain ⟨ms, ns, rfl, first, others⟩ := exists_of_map_append tail
      obtain ⟨name, _, params⟩ := fits_iff.mp fits
      have inner := params p List.mem_cons_self
      have room : ¬ maxDepth ≤ frames.length := by
        have := inner.depth
        omega
      have enter : step ⟨frames, .start⟩ l = .ok ⟨frames, .head n⟩ := by
        have digit := (isName_iff.mp name).2
        simp [step, head, Token.piece, digit]
      have open' : step ⟨frames, .head n⟩ mark = .ok ⟨⟨n, []⟩ :: frames, .start⟩ := by
        simp [step, opened, Token.piece, room]
      rw [List.cons_append, steps_cons enter, List.cons_append, steps_cons open', List.append_assoc,
        steps_tokens p (show Fits (Frame.mk n [] :: frames).length p from inner) first]
      exact steps_tokensParams ps (f := ⟨n, []⟩) p (fun q hq => params q (List.mem_cons_of_mem _ hq)) others

/-- The other parameters of a family, after its parameter `t`. -/
theorem steps_tokensParams : ∀ (ps : List TypeExpr) {f : Frame} {outer : List Frame} {ls rest : List Lexeme}
    (t : TypeExpr), (∀ p ∈ ps, Fits (outer.length + 1) p) →
    ls.map Lexeme.piece = (tokensParams .comma ps).map Token.piece →
    steps ⟨f :: outer, .after t⟩ (ls ++ rest) =
      steps ⟨outer, .after ⟨f.name, f.params.reverse ++ t :: ps⟩⟩ rest
  | [], f, outer, ls, rest, t, _, same => by
      rw [tokensParams, if_neg (by simp)] at same
      obtain ⟨l, ls, rfl, head, tail⟩ := exists_of_map_piece same
      obtain rfl : ls = [] := by simpa using tail
      apply steps_cons
      rw [step_after (by simp [head, Token.piece])]
      simp [stepAfter, head, Token.piece, Focus.after]
  | p :: ps, f, outer, ls, rest, t, fits, same => by
      rw [tokensParams] at same
      obtain ⟨l, ls, rfl, head, tail⟩ := exists_of_map_piece same
      obtain ⟨ms, ns, rfl, first, others⟩ := exists_of_map_append tail
      have next : step ⟨f :: outer, .after t⟩ l = .ok ⟨⟨f.name, t :: f.params⟩ :: outer, .start⟩ := by
        rw [step_after (by simp [head, Token.piece])]
        simp [stepAfter, head, Token.piece]
      have inner : Fits (Frame.mk f.name (t :: f.params) :: outer).length p := fits p List.mem_cons_self
      rw [List.cons_append, steps_cons next, List.append_assoc, steps_tokens p inner first,
        steps_tokensParams ps (f := ⟨f.name, t :: f.params⟩) p (fun q hq => fits q (List.mem_cons_of_mem _ hq)) others]
      simp

end

theorem ofLexemes_complete {ls : List Lexeme} {t : TypeExpr} (same : ls.map Lexeme.piece = t.tokens.map Token.piece)
    (fits : Fits 0 t) : ofLexemes ls = .ok t := by
  have passed : steps ⟨[], .start⟩ (ls ++ []) = steps ⟨[], .after t⟩ [] := steps_tokens t fits same
  rw [List.append_nil] at passed
  unfold ofLexemes Progress.initial
  rw [passed]
  have seen := seen_after t
  unfold steps finish
  cases focus : Focus.after t with
  | start =>
    rw [focus] at seen
    cases seen
  | head n | closed n =>
    rw [focus] at seen
    obtain rfl := Option.some.inj seen
    rfl

/-! ### Texts -/

theorem read_eq_ok_iff {text : String} {t : TypeExpr} : read text = .ok t ↔ Fits 0 t ∧ Spaced t.tokens text.toList := by
  have proper := (laid_lexemesFrom text.toList 0).proper
  constructor
  · intro ok
    obtain ⟨same, fits⟩ := ofLexemes_sound proper ok
    exact ⟨fits, (spaced_iff_pieces (readable_tokens fits.names) text).mpr same⟩
  · rintro ⟨fits, spaced⟩
    exact ofLexemes_complete ((spaced_iff_pieces (readable_tokens fits.names) text).mp spaced) fits

theorem ofString_eq_ok_iff {text : String} {t : TypeExpr} : ofString text = .ok t ↔ read text = .ok t := by
  unfold ofString
  cases read text <;> simp

/-- The text of an expression consists of its tokens, without blanks. -/
theorem spaced_render : ∀ ts : List Token, Spaced ts (String.join (ts.map Token.text)).toList
  | [] => .nil isGap_nil
  | t :: ts => by
      have rest := Spaced.cons (t := t) isGap_nil (spaced_render ts)
      rwa [List.nil_append, ← String.toList_append, ← String.join_cons, ← List.map_cons] at rest

/-- **A text is read as a type expression exactly if it consists of its tokens and blanks.** The expression must be at
most 64 levels deep and all of its names well formed. So exactly these expressions are read back from their own text,
and whatever is read is one of them. -/
theorem ofString_eq_ok_iff_spaced :
    (∀ text t, ofString text = .ok t ↔
      t.depth ≤ 64 ∧ (∀ n ∈ t.names, IsName n) ∧ Spaced t.tokens text.toList) ∧
    (∀ t, ofString t.render = .ok t ↔ t.depth ≤ 64 ∧ ∀ n ∈ t.names, IsName n) ∧
    (∀ text t, ofString text = .ok t → ofString t.render = .ok t) := by
  have fits_iff : ∀ t, Fits 0 t ↔ t.depth ≤ 64 ∧ ∀ n ∈ t.names, IsName n := by
    intro t
    constructor
    · exact fun fits => ⟨by simpa [maxDepth] using fits.depth, fits.names⟩
    · exact fun ⟨depth, names⟩ => ⟨by simpa [maxDepth] using depth, names⟩
  have exact' : ∀ text t, ofString text = .ok t ↔ Fits 0 t ∧ Spaced t.tokens text.toList :=
    fun text t => ofString_eq_ok_iff.trans read_eq_ok_iff
  have back : ∀ t, ofString t.render = .ok t ↔ Fits 0 t :=
    fun t => (exact' t.render t).trans (and_iff_left (spaced_render t.tokens))
  refine ⟨fun text t => ?_, fun t => (back t).trans (fits_iff t), fun text t ok => ?_⟩
  · rw [exact' text t, fits_iff t, and_assoc]
  · exact (back t).mpr ((exact' text t).mp ok).1

/-- Blanks around every token. -/
theorem ofString_eq_ok_iff_spaced_map :
    ofString " Map< String ,Array<Int> >" = .ok ⟨"Map", [⟨"String", []⟩, ⟨"Array", [⟨"Int", []⟩]⟩]⟩ ∧
    ofString "Map<String,Array<Int>>" = .ok ⟨"Map", [⟨"String", []⟩, ⟨"Array", [⟨"Int", []⟩]⟩]⟩ := by
  have read : ofString " Map< String ,Array<Int> >" = .ok ⟨"Map", [⟨"String", []⟩, ⟨"Array", [⟨"Int", []⟩]⟩]⟩ := by
    decide +kernel
  exact ⟨read, ofString_eq_ok_iff_spaced.2.2 _ _ read⟩

end TypeExpr

end ForeignBridge
