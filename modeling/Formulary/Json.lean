/-
  JSON texts of values.

  * `Json`: what a JSON text denotes, with the members of an object sorted;
  * `Value.toJson`: a value as JSON, where a fault becomes an object and what is
    no finite number becomes null;
  * `Json.compact`, `Json.pretty`: texts without and with line breaks.
-/
import Formulary.Value.Text

namespace Formulary

inductive Json where
  | null
  | boolean (b : Bool)
  | number (x : Number)
  | text (s : String)
  | array (items : List Json)
  | object (members : List (String × Json))
  deriving Repr, Inhabited

mutual

/-- A value as JSON; dates and faults become texts. -/
def Value.toJson : Value → Json
  | .number x => if x.isFinite then .number x else .null
  | .text s => .text s
  | .boolean b => .boolean b
  | .array items => .array (itemsToJson items)
  | .object entries => .object (entriesToJson entries)
  | .date t => .text t.text
  | .null => .null
  | .error fault => .object [("error", .text fault.message)]

def Value.itemsToJson : List Value → List Json
  | [] => []
  | v :: rest => v.toJson :: itemsToJson rest

def Value.entriesToJson : List (String × Value) → List (String × Json)
  | [] => []
  | (name, v) :: rest => (name, v.toJson) :: entriesToJson rest

end

namespace Json

/-! ## Texts in quotes -/

/-- A character by its number in four hexadecimal digits. -/
def byNumber (c : Char) : List Char :=
  let digits := Nat.toDigits 16 c.toNat
  ['\\', 'u'] ++ List.replicate (4 - digits.length) '0' ++ digits

/-- A character inside quotes; all but quotes, backslashes and controls stand for
themselves. -/
def escaped (c : Char) : List Char :=
  if c = '"' then ['\\', '"']
  else if c = '\\' then ['\\', '\\']
  else if c = '\n' then ['\\', 'n']
  else if c = '\r' then ['\\', 'r']
  else if c = '\t' then ['\\', 't']
  else if c = '\x08' then ['\\', 'b']
  else if c = '\x0c' then ['\\', 'f']
  else if c.toNat < 32 then byNumber c
  else [c]

def quoted (s : String) : String :=
  String.ofList ('"' :: s.toList.flatMap escaped ++ ['"'])

/-- The text of what has no parts. -/
def atom : Json → String
  | null => "null"
  | boolean b => toString b
  | number x => Layout.report.text x
  | text s => quoted s
  | array _ => "[]"
  | object _ => "\x7b\x7d"

/-! ## Without line breaks -/

mutual

def compact : Json → String
  | array items => "[" ++ ",".intercalate (compactItems items) ++ "]"
  | object members => "\x7b" ++ ",".intercalate (compactMembers members) ++ "\x7d"
  | j => j.atom

def compactItems : List Json → List String
  | [] => []
  | j :: rest => compact j :: compactItems rest

def compactMembers : List (String × Json) → List String
  | [] => []
  | (name, j) :: rest => (quoted name ++ ":" ++ compact j) :: compactMembers rest

end

/-! ## With line breaks -/

/-- A line break and an indentation by so many steps of two spaces. -/
def lineBreak (depth : Nat) : String := "\n" ++ String.ofList (List.replicate (2 * depth) ' ')

/-- Parts between two marks, each on a line of its own. -/
def block (depth : Nat) (first last : String) : List String → String
  | [] => first ++ last
  | parts => first ++ lineBreak (depth + 1) ++ ("," ++ lineBreak (depth + 1)).intercalate parts
      ++ lineBreak depth ++ last

mutual

/-- The text below `depth` others. -/
def prettyAt (depth : Nat) : Json → String
  | array items => block depth "[" "]" (prettyItems (depth + 1) items)
  | object members => block depth "\x7b" "\x7d" (prettyMembers (depth + 1) members)
  | j => j.atom

def prettyItems (depth : Nat) : List Json → List String
  | [] => []
  | j :: rest => prettyAt depth j :: prettyItems depth rest

def prettyMembers (depth : Nat) : List (String × Json) → List String
  | [] => []
  | (name, j) :: rest => (quoted name ++ ": " ++ prettyAt depth j) :: prettyMembers depth rest

end

def pretty (j : Json) : String := prettyAt 0 j

end Json
end Formulary
