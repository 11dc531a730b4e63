/-
  The written forms of scalars, and what line breaks inside of them stand for.

  * `Yaml.Style`: how a scalar is written;
  * `Yaml.foldGap`: the text that blanks and line breaks inside a scalar stand
    for.
-/
import Formulary.Yaml.Spot

namespace Formulary.Yaml

/-- How a scalar is written. -/
inductive Style where
  /-- Without any marks. -/
  | plain
  /-- Between quotes, single or double. -/
  | quoted
  /-- Below a bar, line by line. -/
  | literal
  /-- Below an angle, its lines joined. -/
  | folded
  deriving DecidableEq, Repr

/-- What line breaks between words stand for: a single one for a blank, and of
more the first for nothing.  Breaks of lines and paragraphs stay. -/
def foldBreaks : List Char → List Char
  | ['\n'] => [' ']
  | '\n' :: more => more
  | breaks => breaks

/-- What blanks and line breaks between words stand for: blanks beside a line break
do not count. -/
def foldGap (gap : List Char) : List Char :=
  if gap.any isBreak then foldBreaks (gap.filter isBreak) else gap

/-- Whether the text after some characters starts a line. -/
def endsLine (read : List Char) : Bool := read.getLast?.any isBreak

/-- The blanks at the end that follow the last line break. -/
def indentation (gap : List Char) : List Char := gap.reverse.takeWhile fun c => !isBreak c

end Formulary.Yaml
