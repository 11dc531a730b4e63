/-
  Paths: where a reference leads, a field and then steps into its value.

  The text of a path is its parts with dots between them, where blanks around a
  part do not count.  A part of decimal digits is an index, unless its value
  needs more than 64 bits; every other part is a key.

  * `Path.ofText`: the path that a text denotes;
  * `Path.text`: the text of a path.
-/
import Formulary.Number.Reading
import Formulary.Text.Blank

namespace Formulary

/-- A step into a value: to an element, or to the entry or column of a name. -/
inductive Segment where
  | index (n : Nat)
  | key (name : String)
  deriving DecidableEq, Repr

/-- A field, and the steps into its value. -/
structure Path where
  root : String
  segments : List Segment
  deriving DecidableEq, Repr

/-- Why a text is no path. -/
inductive PathCause where
  /-- It does not start with a name that is not a number. -/
  | badRoot (text : String)
  /-- One of its parts is empty. -/
  | emptyComponent (text : String)
  deriving DecidableEq, Repr

def PathCause.message : PathCause → String
  | badRoot text => "Invalid reference: " ++ text
  | emptyComponent text => "Empty path component in reference: " ++ text

/-- Indices lie below this. -/
def Segment.indexBound : Nat := 2 ^ (64 : Nat)

/-- The step that a part of a text denotes. -/
def Segment.ofPart (part : List Char) : Segment :=
  if part.all Char.isDigit && Decimal.ofDigits part < indexBound then
    index (Decimal.ofDigits part)
  else key (String.ofList part)

def Segment.text : Segment → String
  | index n => toString n
  | key name => name

namespace Path

/-- The parts of a text between dots, without the blanks around them. -/
def parts (text : String) : List (List Char) := (text.toList.splitOn '.').map Text.trim

/-- The path that a text denotes. -/
def ofText (text : String) : Except PathCause Path :=
  match parts text with
  | root :: rest =>
    if root.isEmpty || root.all Char.isDigit then .error (.badRoot text)
    else if rest.any List.isEmpty then .error (.emptyComponent text)
    else .ok ⟨String.ofList root, rest.map Segment.ofPart⟩
  | [] => .error (.badRoot text)

/-- The path of a whole field. -/
def field (root : String) : Path := ⟨root, []⟩

def text (path : Path) : String := ".".intercalate (path.root :: path.segments.map Segment.text)

end Path
end Formulary
