import LineCalc.Decimal
import LineCalc.Text.Quoted

/-!
# Tokens

The smallest meaningful pieces of a statement. A token that separates others, a comment or a run of
blanks, is a token too, but reading a text never keeps one. They are the `Token` of the module
`lexer` of the specification (10.5), and a lexeme is a pair `(Token, line)` there.

* `Token.text` names a token in a message.
* `Lexeme` is a token with the number of the line it stands on.
-/

namespace LineCalc

/-- A token of the calculator's statements. -/
inductive Token where
  /-- A number literal. -/
  | number (value : Binary64)
  /-- The name of a variable. -/
  | identifier (name : String)
  /-- The word `print`. -/
  | print
  /-- A comment. -/
  | comment
  | plus
  | minus
  | star
  | slash
  | percent
  /-- An opening parenthesis. -/
  | opening
  /-- A closing parenthesis. -/
  | closing
  | equals
  /-- A run of blanks. -/
  | blank
  deriving DecidableEq

/-- The name of a token in messages; a number and an identifier show what they carry. -/
def Token.text : Token → String
  | number value => "Number(" ++ value.explicit ++ ")"
  | identifier name => "Identifier(" ++ quote name ++ ")"
  | print => "Print"
  | comment => "Comment"
  | plus => "Plus"
  | minus => "Minus"
  | star => "Star"
  | slash => "Slash"
  | percent => "Percent"
  | opening => "LParen"
  | closing => "RParen"
  | equals => "Equals"
  | blank => "Ignored"

/-- A token and the number of its line. -/
structure Lexeme where
  token : Token
  line : Nat
  deriving DecidableEq

end LineCalc
