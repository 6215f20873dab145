import ForeignBridge.TypeExpr
import ForeignBridge.Text.Alphanumeric
import ForeignBridge.Text.Blank

/-! # Tokens of type expressions

The text of a type expression is a sequence of tokens: names, `<`, `,` and `>`. `TypeExpr.tokens` lists the tokens
of an expression and `TypeExpr.render` joins their texts. `lexemes` goes the other way: it cuts any text into
names and single characters, skipping blanks, and notes at which byte each piece starts. -/

namespace ForeignBridge

namespace TypeExpr

/-! ### From expressions to text -/

/-- A name or one of the three marks. -/
inductive Token where
  | name (text : String)
  | openAngle
  | comma
  | closeAngle
deriving DecidableEq, Repr

/-- The text of a token. -/
def Token.text : Token → String
  | .name text => text
  | .openAngle => "<"
  | .comma => ","
  | .closeAngle => ">"

mutual

/-- The name, then the parameters between angle brackets where there are any. -/
def tokens : TypeExpr → List Token
  | ⟨n, ps⟩ => .name n :: tokensParams .openAngle ps

/-- Each parameter after a mark, `<` first and then commas, and `>` after the last. -/
def tokensParams (mark : Token) : List TypeExpr → List Token
  | [] => if mark = .openAngle then [] else [.closeAngle]
  | p :: ps => mark :: (tokens p ++ tokensParams .comma ps)

end

/-- The text of an expression, without blanks. -/
def render (t : TypeExpr) : String := String.join (t.tokens.map Token.text)

instance : ToString TypeExpr := ⟨render⟩

/-! ### From text to lexemes -/

/-- A character that may stand in a name: a letter or digit of any script, `_` or `:`. -/
def isNameChar (c : Char) : Bool := Text.isAlphanumeric c || c = '_' || c = ':'

/-- What a piece of text is: a longest run of name characters, or any other character that is no blank. -/
inductive Piece where
  | name (chars : List Char)
  | mark (c : Char)
deriving DecidableEq, Repr

/-- A piece of text and the byte at which it starts. -/
structure Lexeme where
  piece : Piece
  offset : Nat
deriving DecidableEq, Repr

/-- Puts a name character in front: it joins a name that starts at the next byte. -/
def attach (c : Char) (offset : Nat) : List Lexeme → List Lexeme
  | ⟨.name chars, p⟩ :: rest =>
    if p = offset + c.utf8Size then ⟨.name (c :: chars), offset⟩ :: rest
    else ⟨.name [c], offset⟩ :: ⟨.name chars, p⟩ :: rest
  | rest => ⟨.name [c], offset⟩ :: rest

/-- The lexemes of a text whose first character is at the byte `offset`. -/
def lexemesFrom (offset : Nat) : List Char → List Lexeme
  | [] => []
  | c :: rest =>
    if Text.isBlank c then lexemesFrom (offset + c.utf8Size) rest
    else if isNameChar c then attach c offset (lexemesFrom (offset + c.utf8Size) rest)
    else ⟨.mark c, offset⟩ :: lexemesFrom (offset + c.utf8Size) rest

/-- The lexemes of a text. -/
def lexemes (text : String) : List Lexeme := lexemesFrom 0 text.toList

/-- The first character of a piece. -/
def Piece.head : Piece → Char
  | .name (c :: _) => c
  | .name [] => '_'
  | .mark c => c

end TypeExpr

end ForeignBridge
