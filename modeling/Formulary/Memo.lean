/-
  What an engine remembers: results of formula fields, and formulas it has read.

  * `Memo`: the last result of each field, and counts of how it was used; a field
    with a result is clean;
  * `Formulas`: the last text of each field's formula with what it denotes.
-/
import Formulary.Expr.Parser
import Formulary.Names.Map

namespace Formulary

/-- The value of a formula field, or why it has none. -/
abbrev Result := Except Fault Value

/-- How often a result was found, was missing, and was computed. -/
structure Counts where
  hits : Nat
  misses : Nat
  evaluations : Nat
  deriving DecidableEq, Repr

/-- Whether the result of a field is remembered. -/
inductive FieldState where
  | clean | dirty
  deriving DecidableEq, Repr

/-- The results of fields. -/
structure Memo where
  results : NameMap Result
  counts : Counts

namespace Memo

def empty : Memo := ⟨.empty, ⟨0, 0, 0⟩⟩

/-- The result of a field; looking it up is counted. -/
def lookUp (m : Memo) (field : String) : Option Result × Memo :=
  match m.results.find? field with
  | some result => (some result, { m with counts := { m.counts with hits := m.counts.hits + 1 } })
  | none => (none, { m with counts := { m.counts with misses := m.counts.misses + 1 } })

def store (m : Memo) (field : String) (result : Result) : Memo :=
  { m with results := m.results.insert field result }

/-- Counts an evaluation. -/
def evaluated (m : Memo) : Memo :=
  { m with counts := { m.counts with evaluations := m.counts.evaluations + 1 } }

def forget (m : Memo) (field : String) : Memo := { m with results := m.results.erase field }

/-- Forgets all results, but not the counts. -/
def clear (m : Memo) : Memo := { m with results := .empty }

def state (m : Memo) (field : String) : FieldState :=
  if m.results.contains field then .clean else .dirty

end Memo

/-- The formulas of fields, with what they denote. -/
abbrev Formulas := NameMap (String × Except ParseFailure Expr)

/-- What the formula of a field denotes.  A text that was read before for the
field is not read again. -/
def Formulas.parse (formulas : Formulas) (field text : String) (limit : Nat) :
    Except ParseFailure Expr × Formulas :=
  match formulas.find? field with
  | some (old, parsed) =>
    if old = text then (parsed, formulas)
    else
      let parsed := Expr.ofText limit text
      (parsed, formulas.insert field (text, parsed))
  | none =>
    let parsed := Expr.ofText limit text
    (parsed, formulas.insert field (text, parsed))

end Formulary
