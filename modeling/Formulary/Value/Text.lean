/-
  The texts of values.

  * `Value.display`: the text a field shows, with nothing quoted;
  * `Value.describe`: a short text that tells values apart, with texts quoted
    and arrays in brackets.
-/
import Formulary.Calendar.Instant
import Formulary.Number.Layout
import Formulary.Text.Printable
import Formulary.Value

namespace Formulary

/-- Parts between an opening and a closing brace. -/
def braced (parts : List String) : String := "\x7b" ++ ", ".intercalate parts ++ "\x7d"

/-- Parts between brackets. -/
def bracketed (parts : List String) : String := "[" ++ ", ".intercalate parts ++ "]"

namespace Value

mutual

/-- The text a field shows for a value. -/
def display : Value → String
  | number x => x.display
  | text s => s
  | boolean b => toString b
  | array items => ", ".intercalate (displays items)
  | object entries => braced (entryDisplays entries)
  | date t => t.text
  | null => "null"
  | error fault => "Error: " ++ fault.message

def displays : List Value → List String
  | [] => []
  | v :: rest => display v :: displays rest

def entryDisplays : List (String × Value) → List String
  | [] => []
  | (name, v) :: rest => (name ++ ": " ++ display v) :: entryDisplays rest

end

mutual

/-- A short text with texts quoted and arrays in brackets. -/
def describe : Value → String
  | text s => Text.quoted s
  | array items => bracketed (describes items)
  | object entries => braced (entryDescriptions entries)
  | v => display v

def describes : List Value → List String
  | [] => []
  | v :: rest => describe v :: describes rest

def entryDescriptions : List (String × Value) → List String
  | [] => []
  | (name, v) :: rest => (name ++ ": " ++ describe v) :: entryDescriptions rest

end

end Value
end Formulary
