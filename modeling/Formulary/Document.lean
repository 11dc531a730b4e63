/-
  Documents: lists of fields, which an engine can keep computed.

  * `Document`: fields in order, no two with one id, and a table of their places that
    is in step with them;
  * `Document.add`, `Document.setFormula`, `Document.remove`: changes of the list
    of fields, whose order is kept;
  * `Document.write`, `Document.push`: changes of values;
  * `Document.field?_eq_find?`, `Document.fields_modify`, `Document.fields_remove`: what
    is read and changed, without the table.
-/
import Formulary.Document.Roster
import Formulary.Host

namespace Formulary

/-- Fields in order, whose ids differ, with a table of their places in step. -/
structure Document extends Roster, Roster.InStep toRoster

namespace Document

theorem ext_roster {doc doc' : Document} (h : doc.toRoster = doc'.toRoster) : doc = doc' := by
  cases doc
  cases doc'
  cases h
  rfl

def empty : Document := ⟨.empty, .empty⟩

/-- The field of an id. -/
def field? (doc : Document) (id : String) : Option Field := doc.toRoster.field? id

theorem field?_eq_find? (doc : Document) (id : String) :
    doc.field? id = doc.fields.find? fun field => field.id == id :=
  doc.toInStep.field?_eq_find? id

theorem field?_eq_none_iff {doc : Document} {id : String} :
    doc.field? id = none ↔ id ∉ doc.fields.map Field.id := by
  simp only [field?_eq_find?, List.find?_eq_none, beq_iff_eq, List.mem_map, not_exists, not_and]

/-- Changes the field of an id, which it keeps. -/
def modify (doc : Document) (id : String) (change : Field → Field)
    (keeps : ∀ field, (change field).id = field.id := by intro; rfl) : Document :=
  ⟨doc.toRoster.modify id change, doc.toInStep.modify keeps⟩

theorem fields_modify (doc : Document) (id : String) (change : Field → Field)
    (keeps : ∀ field, (change field).id = field.id) :
    (doc.modify id change keeps).fields =
      doc.fields.map fun field => if field.id = id then change field else field :=
  doc.toInStep.fields_modify id change

/-- Puts a field of a new id at the end. -/
def append (doc : Document) (field : Field) (h : doc.field? field.id = none) : Document :=
  ⟨doc.toRoster.append field, doc.toInStep.append (doc.toInStep.field?_eq_none_iff.1 h)⟩

/-- Adds a field at the end. -/
def add (doc : Document) (spec : FieldSpec) : Except Invalid Document :=
  match h : (Roster.add spec).run doc.toRoster with
  | .ok _ roster => .ok ⟨roster, doc.toInStep.add h⟩
  | .error cause _ => .error cause

/-- The document of some fields, added in order. -/
def ofSpecs (specs : List FieldSpec) : Except Invalid Document :=
  specs.foldlM add empty

/-- Gives a field another formula, or none. -/
def setFormula (doc : Document) (id : String) (formula? : Option String) :
    Except Invalid Document :=
  match h : (Roster.setFormula id formula?).run doc.toRoster with
  | .ok _ roster => .ok ⟨roster, doc.toInStep.setFormula h⟩
  | .error cause _ => .error cause

/-- The document without a field, and the field. -/
def remove (doc : Document) (id : String) : Option Field × Document :=
  ((doc.toRoster.remove id).1, ⟨(doc.toRoster.remove id).2, doc.toInStep.remove⟩)

theorem fields_remove (doc : Document) (id : String) :
    (doc.remove id).2.fields = doc.fields.filter fun field => field.id != id :=
  doc.toInStep.fields_remove id

/-- Takes over a computed value; one for an unknown field is dropped. -/
def push (doc : Document) (id : String) (value : Value) : Document :=
  ⟨doc.toRoster.push id value, doc.toInStep.push value⟩

/-- Takes over a written value; one for an unknown field makes a field. -/
def write (doc : Document) (id : String) (value : Value) : Document :=
  ⟨doc.toRoster.write id value, doc.toInStep.write value⟩

/-- A written value changes a field, or makes one. -/
theorem write_cases (doc : Document) (id : String) (value : Value) :
    ((doc.field? id).isSome ∧ doc.write id value = doc.modify id fun field => { field with value }) ∨
      ∃ h : doc.field? id = none, doc.write id value = doc.append ⟨id, .other, value, none, []⟩ h := by
  by_cases h : doc.field? id = none
  · refine .inr ⟨h, ext_roster ?_⟩
    show doc.toRoster.write id value = _
    rw [Roster.write, show doc.toRoster.field? id = none from h]
    rfl
  · obtain ⟨field, hfield⟩ := Option.ne_none_iff_exists'.1 h
    refine .inl ⟨Option.isSome_iff_exists.2 ⟨field, hfield⟩, ext_roster ?_⟩
    show doc.toRoster.write id value = _
    rw [Roster.write, show doc.toRoster.field? id = some field from hfield]
    rfl

instance : Host Document where
  value? doc id := (doc.field? id).map Field.value
  formula? doc id := (doc.field? id).bind Field.formula?
  formulaFields doc := (doc.fields.filter fun field => field.formula?.isSome).map Field.id
  kind doc id := (doc.field? id).elim .other Field.kind
  columns doc id := (doc.field? id).elim [] Field.columns
  push := push
  write := write

end Document
end Formulary
