/-
  The characters of a YAML text and where they stand.

  * `Yaml.lines?`: a text with all line breaks of one kind, if it holds no
    character that a text may not hold;
  * `Yaml.Spot`: what is left of a text, with the line and the column where it
    starts.
-/
import Formulary.Text.Blank

namespace Formulary.Yaml

/-! ## Characters -/

/-- The characters that a text may hold. -/
def isAllowed (c : Char) : Bool :=
  let n := c.toNat
  n == 9 || n == 10 || n == 13 || (0x20 ≤ n && n ≤ 0x7E) || n == 0x85
    || (0xA0 ≤ n && n ≤ 0xFFFD) || 0x10000 ≤ n

/-- All breaks but those of lines and paragraphs are written as line feeds. -/
def unifyBreaks : List Char → List Char
  | [] => []
  | '\r' :: '\n' :: rest => '\n' :: unifyBreaks rest
  | c :: rest => (if c = '\r' || c = '\u0085' then '\n' else c) :: unifyBreaks rest

/-- The characters of a text that may be one. -/
def lines? (text : String) : Option (List Char) :=
  if text.toList.all isAllowed then some (unifyBreaks text.toList) else none

/-- A character that ends a line. -/
def isBreak (c : Char) : Bool := c == '\n' || c == '\u2028' || c == '\u2029'

/-- A blank within a line. -/
def isSpace (c : Char) : Bool := c == ' ' || c == '\t'

/-- A blank or a line break. -/
def isGap (c : Char) : Bool := isSpace c || isBreak c

/-- Whether a line ends here. -/
def atBreak : List Char → Bool
  | c :: _ => isBreak c
  | [] => true

/-- Whether a word ends here. -/
def atGap : List Char → Bool
  | c :: _ => isGap c
  | [] => true

/-- Whether three dashes or three points stand here by themselves, which at the
start of a line begin or end a document. -/
def atMarker : List Char → Bool
  | '-' :: '-' :: '-' :: rest => atGap rest
  | '.' :: '.' :: '.' :: rest => atGap rest
  | _ => false

/-- The characters of names. -/
def isNameChar (c : Char) : Bool := c.isAlphanum || c == '_' || c == '-'

/-- The value of a hexadecimal digit. -/
def hexDigit? (c : Char) : Option Nat :=
  let n := c.toNat
  if c.isDigit then some (n - '0'.toNat)
  else if 'a'.toNat ≤ n && n ≤ 'f'.toNat then some (n - 'a'.toNat + 10)
  else if 'A'.toNat ≤ n && n ≤ 'F'.toNat then some (n - 'A'.toNat + 10)
  else none

/-- Puts something in front of what was read. -/
def putFront {α : Type} (front : List α) :
    Option (List α × List Char) → Option (List α × List Char) :=
  Option.map fun r => (front ++ r.1, r.2)

theorem length_dropWhile_le (p : Char → Bool) (s : List Char) :
    (s.dropWhile p).length ≤ s.length :=
  (List.dropWhile_sublist p).length_le

/-! ## Places -/

/-- What is left of a text, and where it starts. -/
structure Spot where
  rest : List Char
  line : Nat
  /-- The number of characters before it on its line. -/
  column : Nat
  /-- The number of bytes of these characters. -/
  bytes : Nat

namespace Spot

/-- The place after one more character. -/
def past (spot : Spot) (c : Char) : Spot :=
  if isBreak c then { spot with line := spot.line + 1, column := 0, bytes := 0 }
  else { spot with column := spot.column + 1, bytes := spot.bytes + c.utf8Size }

/-- The spot where less is left. -/
def goTo (spot : Spot) (rest : List Char) : Spot :=
  let read := spot.rest.take (spot.rest.length - rest.length)
  { read.foldl past spot with rest }

end Spot

end Formulary.Yaml
