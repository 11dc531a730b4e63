/-
  Why a text is no formula.

  * `ParseCause`: what is wrong, with `ParseCause.message` as its text;
  * `ParseFailure`: what is wrong, and where.
-/
import Formulary.Fault
import Formulary.Path
import Formulary.Token

namespace Formulary

/-- What is missing in a place where only one thing can follow. -/
inductive Missing where
  | bracketAfterIndex | bracketAfterItems | parenAfterExpression | parenAfterArguments
  deriving DecidableEq, Repr

def Missing.message : Missing → String
  | bracketAfterIndex => "Expected ']' after index"
  | bracketAfterItems => "Expected ']' after array items"
  | parenAfterExpression => "Expected ')' after expression"
  | parenAfterArguments => "Expected ')' after function arguments"

/-- The most parameters of a lambda: an accumulator, an item and its index. -/
def maxParameters : Nat := 3

/-- What is wrong with a text that is no formula. -/
inductive ParseCause where
  /-- No token starts with this character. -/
  | strayCharacter (c : Char)
  /-- A sign that is only written twice stands alone. -/
  | halfOperator (c : Char)
  | unclosedText
  | unclosedReference
  | emptyReference
  | badNumber (text : String)
  | path (cause : PathCause)
  | emptyFormula
  | tokenAfterEnd (token : Token)
  | strayToken (token : Token)
  | unexpectedEnd
  | tooDeep (limit : Nat)
  | missing (what : Missing)
  /-- A name with a dot cannot be called. -/
  | dottedFunction (name : String)
  | commaBeforeBracket
  | tooManyParameters
  | badParameter
  deriving DecidableEq, Repr

def ParseCause.message : ParseCause → String
  | strayCharacter c => s!"Unexpected character: '{c}'"
  | halfOperator c => s!"Expected '{c}{c}'"
  | unclosedText => "Unterminated string literal"
  | unclosedReference => "Unterminated reference"
  | emptyReference => "Empty reference"
  | badNumber text => s!"Invalid number: {text}"
  | path cause => cause.message
  | emptyFormula => "Empty expression"
  | tokenAfterEnd token => "Unexpected token after expression: " ++ token.show
  | strayToken token => "Unexpected token: " ++ token.show
  | unexpectedEnd => "Unexpected end of expression"
  | tooDeep limit => s!"Expression nested deeper than {limit} levels"
  | missing what => what.message
  | dottedFunction name => s!"Invalid function name: {name}"
  | commaBeforeBracket => "Trailing comma in array literal"
  | tooManyParameters => s!"Lambda takes at most {maxParameters} parameters"
  | badParameter => "Invalid lambda parameter"

/-- What is wrong, and at which character. -/
structure ParseFailure where
  position : Nat
  cause : ParseCause
  deriving DecidableEq, Repr

def ParseFailure.toFault (failure : ParseFailure) : Fault :=
  .parse failure.position failure.cause.message

end Formulary
