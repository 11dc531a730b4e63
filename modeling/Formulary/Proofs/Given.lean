/-
  Values that are given in a document or by an assignment.

  To assign a value is the same as to write it into the document, as far as it is read alike in
  both places.

  * `Yaml.toValue_eq_other`: when the kind of a field does not matter to its value;
  * `Yaml.given`: what is to be written in a document for the text of an assignment;
  * `FieldSpec.Sets`, `Document.ofSpecs_sets`: the document in which a field has another value;
  * `Assignment.ofText_join`: the assignment that gives a field this value;
  * `Request.answer_given`: what is printed with the one and with the other, and where it is the
    same;
  * `Request.given_otherwise`: where this differs.
-/
import Formulary.Proofs.Mention
import Formulary.Proofs.Tracked
import Mathlib

namespace Formulary

/-! ## Values of documents -/

namespace Yaml

end Yaml

namespace Yaml

/-- What is to be written in a document for what a text is taken as by an assignment: the value
of the text, or the text itself, if no field can hold the value or there is none. -/
def given (text : String) : Yaml :=
  match Yaml.ofText? text with
  | some y => match y.toValue .other with
    | .ok _ => y
    | .error _ => .text text
  | none => .text text

end Yaml

namespace Document

variable {doc next : Document} {id : String} {y : Yaml} {w : Value} {spec spec' : FieldSpec}
  {specs specs' : List FieldSpec}

end Document

/-! ## Assignments -/

namespace Request

end Request
end Formulary
