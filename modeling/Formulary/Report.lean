/-
  What the commands print.

  * `Report.values`, `Report.valuesJson`: the fields of a document with their
    results, for readers and for programs;
  * `Report.graph`: what formulas use, the order in which they are computed, and
    circular references;
  * `Report.value`, `Report.valueJson`: one value.
-/
import Formulary.Document
import Formulary.Engine
import Formulary.Json

namespace Formulary.Report

/-- Lines, each of which is ended. -/
def lines (ls : List String) : String := String.join (ls.map (· ++ "\n"))

/-- The first lines of a report on a file. -/
def heading (title file : String) : List String := [title, "   File: " ++ file, ""]

/-! ## Values -/

/-- A formula field shows its result, any other field what it holds. -/
def shown (results : Results) (field : Field) : Value :=
  match results.find? field.id with
  | some result => Value.shown field.kind result
  | none => field.value

/-- The line of a field. -/
def fieldLine (results : Results) (field : Field) : String :=
  let line := "   " ++ field.id ++ " = " ++ (shown results field).describe
  match results.find? field.id with
  | some (.error fault) => line ++ "  ⚠️  " ++ fault.message
  | some (.ok _) => line ++ "  (formula)"
  | none => line

/-- All fields in order, with faults beside the fields that have one. -/
def values (file : String) (doc : Document) (results : Results) : String :=
  lines (heading "🔥 FieldForge - Evaluating formulas" file
    ++ "✅ Field values:" :: doc.fields.map (fieldLine results) ++ [""])

/-- The text of a fault. -/
def faultJson? : Result → Option Json
  | .ok _ => none
  | .error fault => some (.text fault.message)

/-- The values of all fields and the faults of those that have one. -/
def valuesJson (doc : Document) (results : Results) : String :=
  let fields := doc.fields.map fun field => (field.id, (shown results field).toJson)
  let errors := results.entries.filterMap fun (id, result) =>
    (faultJson? result).map fun j => (id, j)
  lines [(Json.object
    [("errors", .object errors), ("fields", .object (Entries.ofList fields))]).pretty]

/-! ## Graphs -/

/-- Names with commas between them, or a dash for none. -/
def listed (names : List String) : String :=
  if names.isEmpty then "-" else ", ".intercalate names

/-- The lines of a formula field. -/
def usesLines (g : Graph) (field : String) : List String :=
  ["   " ++ field, "      uses:    " ++ listed (g.precedentsOf field),
    "      used by: " ++ listed (g.dependentsOf field)]

/-- The line of the fields that are computed in a step. -/
def stepLine (g : Graph) (number : Nat) (group : List String) : String :=
  let line := s!"   {number}. " ++ ", ".intercalate group
  if g.isCyclic group then line ++ " (cycle)" else line

/-- The lines on circular references. -/
def cycleLines : List (List String) → List String
  | [] => ["✅ No circular references"]
  | cycles =>
    "❌ Circular references:" :: cycles.map fun cycle => "   " ++ " -> ".intercalate cycle

/-- What formulas use, the order in which they are computed, and circular
references. -/
def graph (file : String) (g : Graph) : String :=
  let groups := g.components g.fields
  let steps := groups.zipIdx 1 |>.map fun (group, number) => stepLine g number group
  lines (heading "🔍 FieldForge - Dependency graph" file
    ++ "📋 Formula fields:" :: g.fields.names.flatMap (usesLines g)
    ++ "" :: "🧮 Recompute order:" :: steps
    ++ "" :: cycleLines g.cycles)

/-! ## One value -/

def value (v : Value) : String := lines [v.describe]

def valueJson (v : Value) : String := lines [v.toJson.compact]

end Formulary.Report
