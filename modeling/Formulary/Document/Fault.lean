/-
  What can be wrong with a document, a configuration or a command.

  * `DocumentFault`: the kinds of faults, with what each of them names;
  * `DocumentFault.message?`: the text of a fault, where it has one of its own.
-/
import Formulary.Fault
import Formulary.Yaml

namespace Formulary

/-- What is wrong with a document or with a change of one. -/
inductive Invalid where
  /-- An id that cannot stand in a reference. -/
  | badId (id : String)
  | duplicateId (id : String)
  | unknownField (id : String)
  /-- The value of a field is no value. -/
  | badValue (id : String) (cause : YamlCause)
  /-- An assignment without an equals sign. -/
  | noAssignment (text : String)
  /-- An assignment to nothing. -/
  | noTarget (text : String)
  deriving DecidableEq, Repr

/-- The beginning of every such text. -/
def Invalid.label : String := "Validation error: "

def Invalid.message : Invalid → String
  | badId id => s!"Invalid field id '{id}'"
  | duplicateId id => s!"Duplicate field id '{id}'"
  | unknownField id => s!"Unknown field '{id}'"
  | badValue id cause => s!"Field '{id}': " ++ label ++ cause.message
  | noAssignment text => s!"Expected id=value, got '{text}'"
  | noTarget text => s!"Missing field id in '{text}'"

/-- Why a document could not be loaded or a command not be carried out. -/
inductive DocumentFault where
  | invalid (cause : Invalid)
  /-- The text is no YAML, or not of the expected form. -/
  | yaml
  /-- There is no such file. -/
  | file
  | formula (fault : Fault)
  deriving DecidableEq, Repr

/-- The text of a fault; those of files and of YAML are not fixed. -/
def DocumentFault.message? : DocumentFault → Option String
  | invalid cause => some (Invalid.label ++ cause.message)
  | yaml | file => none
  | formula fault => some fault.message

end Formulary
