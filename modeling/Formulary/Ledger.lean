/-
  Ledgers: the plainest hosts, with values and formulas by name.

  A ledger declares no kinds and no columns, and it keeps a list of the values
  that were pushed into it.
-/
import Formulary.Host
import Formulary.Names.Map

namespace Formulary

/-- Values and formulas by name, and the values pushed, in order. -/
structure Ledger where
  values : NameMap Value
  formulas : NameMap String
  pushed : List (String × Value)

namespace Ledger

instance : Host Ledger where
  value? ledger field := ledger.values.find? field
  formula? ledger field := ledger.formulas.find? field
  formulaFields ledger := ledger.formulas.names
  kind _ _ := .other
  columns _ _ := []
  push ledger field v :=
    { ledger with
      values := ledger.values.insert field v
      pushed := ledger.pushed ++ [(field, v)] }
  write ledger field v := { ledger with values := ledger.values.insert field v }

/-- Gives a field a formula, or takes it away. -/
def setFormula (ledger : Ledger) (field : String) (formula? : Option String) : Ledger :=
  match formula? with
  | some text => { ledger with formulas := ledger.formulas.insert field text }
  | none => { ledger with formulas := ledger.formulas.erase field }

/-- Takes the value and the formula of a field away. -/
def remove (ledger : Ledger) (field : String) : Ledger :=
  { ledger with values := ledger.values.erase field, formulas := ledger.formulas.erase field }

end Ledger
end Formulary
