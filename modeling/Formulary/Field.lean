/-
  What a field is declared to be.

  * `FieldKind`: the kind of a field, which decides its blank value, and the name
    of a kind;
  * `Column`: a column of a table.
-/

namespace Formulary

/-- The kind of a field. -/
inductive FieldKind where
  | text | textarea | number | date | dropdown | multiSelect | table | other
  deriving DecidableEq, Repr, Inhabited

namespace FieldKind

def name : FieldKind → String
  | text => "text"
  | textarea => "textarea"
  | number => "number"
  | date => "date"
  | dropdown => "dropdown"
  | multiSelect => "multiSelect"
  | table => "table"
  | other => "other"

def all : List FieldKind := [text, textarea, number, date, dropdown, multiSelect, table, other]

/-- The kinds by name. -/
def byName : List (String × FieldKind) := all.map fun kind => (kind.name, kind)

end FieldKind

/-- A column of a table: rows hold its cells under its id, and references may
also call it by its title. -/
structure Column where
  id : String
  title : String
  deriving DecidableEq, Repr

end Formulary
