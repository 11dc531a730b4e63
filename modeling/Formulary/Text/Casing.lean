/-
  Upper and lower case of whole texts.

  * `Text.upper`: every character in upper case, which may be several characters;
  * `Text.lower`: every character in lower case, where a sigma takes the form
    that its place in the word asks for.
-/
import Formulary.Text.CaseTable

namespace Formulary.Text

/-- The other case of a character according to a table of runs; a character in
no run has no other. -/
def shift (steps : Array (Nat × Nat × Nat × Int)) (c : Char) : Char :=
  match steps.find? fun (first, last, step, _) =>
      first ≤ c.toNat && c.toNat ≤ last && (c.toNat - first) % step == 0 with
  | some (_, _, _, offset) => Char.ofNat (c.toNat + offset).toNat
  | none => c

/-- The upper case of a character. -/
def upperChar (c : Char) : List Char :=
  if c.toNat < 128 then [c.toUpper]
  else match upperExpansions.find? (·.1 == c.toNat) with
    | some (_, expansion) => expansion.map Char.ofNat
    | none => [shift upperSteps c]

def upper (s : String) : String := String.ofList (s.toList.flatMap upperChar)

/-- Whether the first character that is not case-ignorable is cased. -/
def leadsToCased (s : List Char) : Bool :=
  match s.dropWhile isCaseIgnorable with
  | [] => false
  | c :: _ => isCased c

/-- The lower case of a character between the text before it, nearest character
first, and the text after it.  A capital sigma becomes a final sigma where it
ends a word of more than one letter. -/
def lowerChar (before : List Char) (c : Char) (after : List Char) : List Char :=
  if c.toNat < 128 then [c.toLower]
  else if c = '\u0130' then ['i', '\u0307']
  else if c = '\u03A3' then
    [if leadsToCased before && !leadsToCased after then '\u03C2' else '\u03C3']
  else [shift lowerSteps c]

def lowerFrom (before : List Char) : List Char → List Char
  | [] => []
  | c :: after => lowerChar before c after ++ lowerFrom (c :: before) after

def lower (s : String) : String := String.ofList (lowerFrom [] s.toList)

end Formulary.Text
