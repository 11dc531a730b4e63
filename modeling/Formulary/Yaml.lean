/-
  The values of a YAML text.

  * `Yaml`: null, truth values, numbers, texts, sequences, mappings and tagged
    values;
  * `Yaml.toValue`: the value that a field of a kind holds for one.
-/
import Formulary.Number.Layout
import Formulary.Value.Date

namespace Formulary

/-- A value of a YAML text.  Mappings keep the order of the text. -/
inductive Yaml where
  | null
  | boolean (b : Bool)
  | integer (n : Int)
  | float (x : Number)
  | text (s : String)
  | sequence (items : List Yaml)
  | mapping (entries : List (Yaml × Yaml))
  | tagged (tag : String) (content : Yaml)
  deriving Repr, Inhabited

/-- Why a value of a YAML text is no value of a field. -/
inductive YamlCause where
  /-- A key of a mapping is neither a text nor a number nor a truth value. -/
  | keyNotScalar
  deriving DecidableEq, Repr

def YamlCause.message : YamlCause → String
  | keyNotScalar => "Mapping keys must be scalars"

namespace Yaml

/-- The name that a key of a mapping stands for. -/
def keyText? : Yaml → Option String
  | text s => some s
  | integer n => some (toString n)
  | float x => some (Layout.key.text x)
  | boolean b => some (toString b)
  | _ => none

/-- The text of a date field is a date if it can be read as one. -/
def textValue (kind : FieldKind) (s : String) : Value :=
  if kind = .date then
    match Value.dateOfText? s with
    | some t => .date t
    | none => .text s
  else .text s

mutual

/-- The value of a field of a kind.  The kind does not matter inside sequences and
mappings, and tags do not matter at all. -/
def toValue (kind : FieldKind) : Yaml → Except YamlCause Value
  | null => .ok .null
  | boolean b => .ok (.boolean b)
  | integer n => .ok (.number (Number.ofInt n))
  | float x => .ok (.number x)
  | text s => .ok (textValue kind s)
  | sequence items => (itemValues items).map .array
  | mapping entries => (entryValues [] entries).map .object
  | tagged _ content => toValue kind content

def itemValues : List Yaml → Except YamlCause (List Value)
  | [] => .ok []
  | item :: rest =>
    (toValue .other item).bind fun v => (itemValues rest).map (v :: ·)

/-- The entries of a mapping, put in one after the other: of two keys with one
text the later counts. -/
def entryValues (found : List (String × Value)) : List (Yaml × Yaml) →
    Except YamlCause (List (String × Value))
  | [] => .ok found
  | (key, content) :: rest =>
    match keyText? key with
    | none => .error .keyNotScalar
    | some name =>
      (toValue .other content).bind fun v => entryValues (Entries.insert name v found) rest

end

end Yaml
end Formulary
