/-
  Scalars below a bar or an angle: the indented lines that follow.

  * `Yaml.readBlock`: the text of the lines, and what follows them.

  The header may give the indent of the lines and say what becomes of the line
  breaks at the end.
-/
import Formulary.Yaml.Scalar

namespace Formulary.Yaml

/-! ## The header -/

/-- What becomes of the line breaks at the end. -/
inductive Chomping where
  /-- None stays. -/
  | strip
  /-- One stays. -/
  | clip
  /-- All stay. -/
  | keep
  deriving DecidableEq, Repr

/-- The sign for the line breaks at the end, if there is one. -/
def readChomping : List Char → Option Chomping × List Char
  | '+' :: rest => (some .keep, rest)
  | '-' :: rest => (some .strip, rest)
  | rest => (none, rest)

/-- The indent that a header gives, zero for none.  It must not be written as zero. -/
def readIndent : List Char → Option (Nat × List Char)
  | c :: rest =>
    if c = '0' then none
    else if c.isDigit then some (c.toNat - '0'.toNat, rest)
    else some (0, c :: rest)
  | [] => some (0, [])

/-- The two parts of a header, in either order. -/
def readHeader (s : List Char) : Option (Chomping × Nat × List Char) :=
  let (first?, rest) := readChomping s
  (readIndent rest).map fun (indent, rest') =>
    match first? with
    | some chomping => (chomping, indent, rest')
    | none => ((readChomping rest').1.getD .clip, indent, (readChomping rest').2)

/-- The end of the line, where nothing but a comment may stand. -/
def readLineEnd (s : List Char) : Option (List Char) :=
  let s := s.dropWhile isSpace
  let s := match s with
    | '#' :: _ => s.dropWhile fun c => !isBreak c
    | _ => s
  if atBreak s then some (s.drop 1) else none

/-! ## The lines -/

/-- Empty lines, and the start of the line that follows. -/
structure EmptyLines where
  breaks : List Char
  /-- The most blanks that one of the lines starts with. -/
  widest : Nat
  /-- The blanks of the last line, up to the indent. -/
  column : Nat
  rest : List Char

/-- No empty line, before a text that starts at a column. -/
def EmptyLines.none (column : Nat) (rest : List Char) : EmptyLines := ⟨[], column, column, rest⟩

/-- One more empty line in front, with some blanks and a break. -/
def EmptyLines.put (c : Char) (width : Nat) (empty : EmptyLines) : EmptyLines :=
  { empty with breaks := c :: empty.breaks, widest := max width empty.widest }

/-- The blanks at the front of a line that belong to its indent, which is known or
zero. -/
def indentWidth (indent : Nat) (s : List Char) : Nat :=
  let spaces := (s.takeWhile (· == ' ')).length
  if indent = 0 then spaces else min spaces indent

/-- The empty lines at the front of a text whose indent is known, or zero.  A tab
must not be part of an indent. -/
def readEmptyLines (indent : Nat) (s : List Char) : Option EmptyLines :=
  match _h : s.drop (indentWidth indent s) with
  | [] => some (EmptyLines.none (indentWidth indent s) [])
  | c :: rest =>
    if c = '\t' && (indent = 0 || indentWidth indent s < indent) then none
    else if isBreak c then
      (readEmptyLines indent rest).map (EmptyLines.put c (indentWidth indent s))
    else some (EmptyLines.none (indentWidth indent s) (c :: rest))
termination_by s.length
decreasing_by
  have := congrArg List.length _h
  simp only [List.length_drop, List.length_cons] at this
  omega

theorem readEmptyLines_length_le {indent : Nat} {s : List Char} {empty : EmptyLines}
    (h : readEmptyLines indent s = some empty) : empty.rest.length ≤ s.length := by
  fun_induction readEmptyLines indent s generalizing empty with
  | case1 =>
    simp only [Option.some.injEq] at h
    simp [← h, EmptyLines.none]
  | case2 => simp at h
  | case3 s c rest hs _ _ ih =>
    obtain ⟨r, hr, rfl⟩ := Option.map_eq_some_iff.1 h
    have := ih hr
    have := congrArg List.length hs
    simp only [List.length_drop, List.length_cons, EmptyLines.put] at this ⊢
    omega
  | case4 s c rest hs =>
    have := congrArg List.length hs
    simp only [List.length_drop, Option.some.injEq] at this h
    simp only [← h, EmptyLines.none]
    omega

/-- A line with text, and the line breaks up to the next one. -/
structure BlockLine where
  text : List Char
  /-- The break of the line itself, which the last line may lack. -/
  finish : List Char
  /-- The breaks of empty lines. -/
  more : List Char

/-- The lines with text that start at an indent, and what follows them. -/
def readBlockLines (indent column : Nat) (s : List Char) :
    Option (List BlockLine × List Char) :=
  if column ≠ indent then some ([], s)
  else match s with
    | [] => some ([], [])
    | c :: rest =>
      let text := c :: rest.takeWhile fun d => !isBreak d
      match _h : readEmptyLines indent ((rest.dropWhile fun d => !isBreak d).drop 1) with
      | none => none
      | some empty =>
        (readBlockLines indent empty.column empty.rest).map fun (lines, rest') =>
          let finish := (rest.dropWhile fun d => !isBreak d).take 1
          (⟨text, finish, empty.breaks⟩ :: lines, rest')
termination_by s.length
decreasing_by
  have := length_dropWhile_le (fun d => !isBreak d) rest
  have := readEmptyLines_length_le _h
  simp only [List.length_drop, List.length_cons] at *
  omega

/-! ## The text -/

def BlockLine.startsBlank (line : BlockLine) : Bool := line.text.head?.any isSpace

/-- What the breaks between two lines stand for.  Where lines are joined, this does
not touch lines that start with a blank. -/
def joint (joined : Bool) (line next : BlockLine) : List Char :=
  if joined && line.finish == ['\n'] && !line.startsBlank && !next.startsBlank then
    if line.more.isEmpty then [' '] else line.more
  else line.finish ++ line.more

/-- The breaks that stay at the end. -/
def Chomping.apply (finish more : List Char) : Chomping → List Char
  | strip => []
  | clip => finish
  | keep => finish ++ more

/-- The text of some lines. -/
def blockText (joined : Bool) (chomping : Chomping) : List BlockLine → List Char
  | [] => []
  | [line] => line.text ++ chomping.apply line.finish line.more
  | line :: next :: rest =>
    line.text ++ joint joined line next ++ blockText joined chomping (next :: rest)

/-- The text of the lines after the sign of a block, and what follows them.  Lines
without a given indent have that of the first one, which is at least the margin. -/
def readBlock (joined : Bool) (margin : Nat) (s : List Char) :
    Option (List Char × List Char) := do
  let (chomping, given, afterHeader) ← readHeader s
  let body ← readLineEnd afterHeader
  let known := if given = 0 then 0 else margin - 1 + given
  let empty ← readEmptyLines known body
  let indent := if known = 0 then max (max empty.widest margin) 1 else known
  let (lines, rest) ← readBlockLines indent empty.column empty.rest
  let text := match lines with
    | [] => chomping.apply [] empty.breaks
    | lines => empty.breaks ++ blockText joined chomping lines
  return (text, rest)

end Formulary.Yaml
