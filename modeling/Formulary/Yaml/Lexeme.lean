/-
  The parts of a YAML text from which its nodes are made.

  * `Yaml.Lexeme`: signs, marks of nodes and scalars; the ends of blocks, which
    only indentation shows, are lexemes of their own.
-/
import Formulary.Yaml.Scalar

namespace Formulary.Yaml

/-- The shorthands that the tags of every document may use. -/
def standardHandles : List (String × String) := [("!", "!"), ("!!", "tag:yaml.org,2002:")]

inductive Lexeme where
  /-- The version that a document is written for. -/
  | version (major minor : Nat)
  /-- A shorthand for the start of tags. -/
  | handle (name start : String)
  | documentStart
  | documentEnd
  | blockSequence
  | blockMapping
  | blockEnd
  | openBracket
  | closeBracket
  | openBrace
  | closeBrace
  /-- A dash before an item. -/
  | dash
  | comma
  /-- What follows is a key. -/
  | key
  /-- What follows is the value of a key. -/
  | value
  | aliasOf (name : String)
  | anchor (name : String)
  /-- A tag that starts with a shorthand, or with an empty one. -/
  | tag (handle rest : String)
  | scalar (style : Style) (text : String)
  deriving DecidableEq, Repr

end Formulary.Yaml
