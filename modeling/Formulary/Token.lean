/-
  Tokens: the words that a formula is made of.

  * `Sign`: the operator signs, as they are written;
  * `Token`, `Located`: a token, and a token with the place where it starts;
  * `Token.show`: a token as errors show it.
-/
import Formulary.Number.Layout
import Formulary.Text.Printable

namespace Formulary

/-- An operator sign.  Equality and inequality have two spellings each. -/
inductive Sign where
  | plus | minus | times | slash
  | equal | doubleEqual | bangEqual | lessGreater
  | less | greater | lessEqual | greaterEqual
  | doubleAnd | doubleOr | bang
  deriving DecidableEq, Repr

def Sign.text : Sign → String
  | plus => "+"
  | minus => "-"
  | times => "*"
  | slash => "/"
  | equal => "="
  | doubleEqual => "=="
  | bangEqual => "!="
  | lessGreater => "<>"
  | less => "<"
  | greater => ">"
  | lessEqual => "<="
  | greaterEqual => ">="
  | doubleAnd => "&&"
  | doubleOr => "||"
  | bang => "!"

/-- A word of a formula. -/
inductive Token where
  | number (x : Number)
  /-- A text that stood between quotes. -/
  | text (s : String)
  /-- A bare name: of a function, a constant, or a path. -/
  | identifier (name : String)
  /-- A path that stood between braces. -/
  | reference (path : String)
  | operator (sign : Sign)
  | openParen | closeParen | openBracket | closeBracket
  | comma
  | arrow
  deriving DecidableEq, Repr

/-- A token as errors show it. -/
def Token.show : Token → String
  | number x => "Number(" ++ Layout.shown.text x ++ ")"
  | text s => "Text(" ++ Text.quoted s ++ ")"
  | identifier name => "Identifier(" ++ Text.quoted name ++ ")"
  | reference path => "Reference(" ++ Text.quoted path ++ ")"
  | operator sign => "Operator(" ++ Text.quoted sign.text ++ ")"
  | openParen => "OpenParen"
  | closeParen => "CloseParen"
  | openBracket => "OpenBracket"
  | closeBracket => "CloseBracket"
  | comma => "Comma"
  | arrow => "Arrow"

/-- A token and the character at which it starts, counted from zero. -/
structure Located where
  token : Token
  position : Nat
  deriving DecidableEq, Repr

end Formulary
