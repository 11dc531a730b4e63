/-
  Faults: the errors that reading or evaluating a formula can end in.

  * `Fault`: the kinds of faults, with what each of them names;
  * `Fault.message`: the text of a fault;
  * `Fault.notice?`: the text that a field shows in place of a blank value.
-/

namespace Formulary

/-- Why a formula has no value. -/
inductive Fault where
  /-- The text is no formula; the position counts characters from zero. -/
  | parse (position : Nat) (message : String)
  /-- A reference leads nowhere. -/
  | reference (path : String)
  /-- Fields refer to each other in a circle, listed from a field back to itself. -/
  | cycle (fields : List String)
  /-- An operation does not take its operands. -/
  | type (operation operands : String)
  /-- An operation has no result for its operands. -/
  | domain (operation reason : String)
  /-- A text is no number. -/
  | conversion (input : String)
  deriving DecidableEq, Repr

namespace Fault

def message : Fault → String
  | parse position message => s!"Parse error at position {position}: {message}"
  | reference path => s!"Invalid reference: {path}"
  | cycle fields => "Circular reference: " ++ " -> ".intercalate fields
  | type operation operands => s!"Type error in {operation}: {operands}"
  | domain operation reason => s!"{operation}: {reason}"
  | conversion input => s!"Cannot convert '{input}' to a number"

/-- The operation whose domain faults are shown to the reader of a field. -/
def noticed : String := "sqrt"

/-- The text that a field shows in place of a blank value, if there is one. -/
def notice? : Fault → Option String
  | domain operation reason => if operation = noticed then some reason else none
  | _ => none

end Fault
end Formulary
