import ForeignBridge.TypeExpr.Token

/-! # Reading type expressions

The reader goes through the lexemes from left to right and keeps the families whose `<` is still open. It stops
at the first lexeme that cannot continue a type expression, so the fault it reports is the leftmost one.

* `step` moves over one lexeme, `finish` decides at the end of the text;
* `read` accepts a text exactly when all lexemes pass and no `<` is left open;
* a `<` below `maxDepth` open ones is refused, which bounds the depth of every accepted expression. -/

namespace ForeignBridge

namespace TypeExpr

/-- How many `<` may be open at once. -/
def maxDepth : Nat := 64

/-- Why a text is no type expression. -/
inductive Fault where
  /-- Something else stands where a name must; none at the end of the text. -/
  | expectedName (found : Option (Char × Nat))
  /-- A name starts with a digit. -/
  | leadingDigit (name : String)
  /-- One `<` too many is open. -/
  | tooDeep (name : String)
  /-- Neither `,` nor `>` follows a parameter. -/
  | expectedSeparator (found : Char) (offset : Nat)
  /-- The text ends inside the parameters of a family. -/
  | unclosed (name : String)
  /-- Text is left over after the expression. -/
  | trailing (found : Char) (offset : Nat)
deriving DecidableEq, Repr

/-- What is wrong, in words. -/
def Fault.message : Fault → String
  | .expectedName none => "expected a type name, found end of input"
  | .expectedName (some (c, p)) => s!"expected a type name, found '{c}' at offset {p}"
  | .leadingDigit n => s!"type name '{n}' starts with a digit"
  | .tooDeep n => s!"'{n}' nests deeper than {maxDepth} levels"
  | .expectedSeparator c p => s!"expected ',' or '>' but found '{c}' at offset {p}"
  | .unclosed n => s!"unclosed '<' after '{n}'"
  | .trailing c p => s!"unexpected '{c}' at offset {p}"

/-- A family whose `<` is open, with the parameters read so far, the newest first. -/
structure Frame where
  name : String
  params : List TypeExpr
deriving Repr

/-- What the reader has just seen. -/
inductive Focus where
  /-- Nothing yet, `<` or `,`: a name must follow. -/
  | start
  /-- A name, which `<` may follow. -/
  | head (name : String)
  /-- A `>`, which ended this expression. -/
  | closed (t : TypeExpr)
deriving Repr

/-- The open families, innermost first, and what has just been seen. -/
structure Progress where
  frames : List Frame
  focus : Focus
deriving Repr

/-- Before the first lexeme. -/
def Progress.initial : Progress := ⟨[], .start⟩

/-- Moves over a lexeme that follows the complete expression `t`. -/
def stepAfter (frames : List Frame) (t : TypeExpr) (l : Lexeme) : Except Fault Progress :=
  match frames with
  | [] => .error (.trailing l.piece.head l.offset)
  | f :: outer =>
    match l.piece with
    | .mark ',' => .ok ⟨⟨f.name, t :: f.params⟩ :: outer, .start⟩
    | .mark '>' => .ok ⟨outer, .closed ⟨f.name, (t :: f.params).reverse⟩⟩
    | piece => .error (.expectedSeparator piece.head l.offset)

/-- The first character is an ASCII digit. -/
def startsWithDigit : List Char → Bool
  | [] => false
  | c :: _ => c.isDigit

/-- Moves over one lexeme. -/
def step (p : Progress) (l : Lexeme) : Except Fault Progress :=
  match p.focus, l.piece with
  | .start, .mark c => .error (.expectedName (some (c, l.offset)))
  | .start, .name chars =>
    if startsWithDigit chars then .error (.leadingDigit (String.ofList chars))
    else .ok ⟨p.frames, .head (String.ofList chars)⟩
  | .head n, .mark '<' =>
    if maxDepth ≤ p.frames.length then .error (.tooDeep n)
    else .ok ⟨⟨n, []⟩ :: p.frames, .start⟩
  | .head n, _ => stepAfter p.frames (concrete n) l
  | .closed t, _ => stepAfter p.frames t l

/-- The expression `t` is the whole text unless a `<` is still open. -/
def finishAfter (frames : List Frame) (t : TypeExpr) : Except Fault TypeExpr :=
  match frames with
  | [] => .ok t
  | f :: _ => .error (.unclosed f.name)

/-- Decides at the end of the text. -/
def finish (p : Progress) : Except Fault TypeExpr :=
  match p.focus with
  | .start => .error (.expectedName none)
  | .head n => finishAfter p.frames (concrete n)
  | .closed t => finishAfter p.frames t

/-- Moves over lexemes until the first fault. -/
def steps (p : Progress) : List Lexeme → Except Fault Progress
  | [] => .ok p
  | l :: rest =>
    match step p l with
    | .ok q => steps q rest
    | .error fault => .error fault

/-- Reads a list of lexemes as one type expression. -/
def ofLexemes (ls : List Lexeme) : Except Fault TypeExpr :=
  match steps .initial ls with
  | .ok p => finish p
  | .error fault => .error fault

/-- Reads a text as one type expression. -/
def read (text : String) : Except Fault TypeExpr := ofLexemes (lexemes text)

end TypeExpr

/-- A text that is no type expression, and why. -/
structure TypeSyntaxError where
  input : String
  fault : TypeExpr.Fault
deriving DecidableEq, Repr

/-- The whole text, then what is wrong with it. -/
def TypeSyntaxError.message (e : TypeSyntaxError) : String :=
  s!"invalid type expression '{e.input}': {e.fault.message}"

/-- Reads a text as one type expression; the error names the text. -/
def TypeExpr.ofString (text : String) : Except TypeSyntaxError TypeExpr :=
  match TypeExpr.read text with
  | .ok t => .ok t
  | .error fault => .error ⟨text, fault⟩

end ForeignBridge
