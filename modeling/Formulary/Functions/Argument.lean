/-
  Arguments: what functions can do with the expressions they are given.

  * `Lambda`, `Argument`: an argument not yet evaluated, and the lambda that it
    is, if it is one;
  * `Builtin`: a function with its name;
  * `one`, `two`, `three`, `oneOrTwo`, `some`: checks of the number of arguments;
  * `Argument.number`, `Argument.text`, `Argument.collection`, `Argument.asLambda`:
    checks of their kinds.
-/
import Formulary.Evaluation

namespace Formulary

/-- The parameters of a lambda, and its body as a function of their values. -/
structure Lambda where
  params : List String
  body : Frame → Evaluation Value

/-- Calls a lambda; values beyond its parameters are dropped. -/
def Lambda.call (f : Lambda) (values : List Value) : Evaluation Value :=
  f.body (f.params.zip values)

/-- An argument: its value, and the lambda that it is. -/
structure Argument where
  value : Evaluation Value
  lambda? : Option Lambda

/-- A function: its name, and what it makes of its arguments. -/
structure Builtin where
  name : String
  apply : List Argument → Evaluation Value

/-- The fault of operands of the wrong kinds. -/
def operandFault (operation : String) (operands : List Value) : Fault :=
  .type operation (", ".intercalate (operands.map Value.kind))

namespace Builtin

/-! ## Numbers of arguments -/

def one (name : String) (apply : Argument → Evaluation Value) : Builtin where
  name
  apply
    | [a] => apply a
    | args => .raise (.type name s!"expected 1 argument(s), got {args.length}")

def two (name : String) (apply : Argument → Argument → Evaluation Value) : Builtin where
  name
  apply
    | [a, b] => apply a b
    | args => .raise (.type name s!"expected 2 argument(s), got {args.length}")

def three (name : String) (apply : Argument → Argument → Argument → Evaluation Value) :
    Builtin where
  name
  apply
    | [a, b, c] => apply a b c
    | args => .raise (.type name s!"expected 3 argument(s), got {args.length}")

/-- A function without arguments. -/
def none (name : String) (value : Evaluation Value) : Builtin where
  name
  apply
    | [] => value
    | args => .raise (.type name s!"expected 0 argument(s), got {args.length}")

/-- A function of one argument and an optional second. -/
def oneOrTwo (name : String) (apply : Argument → Option Argument → Evaluation Value) :
    Builtin where
  name
  apply
    | [a] => apply a .none
    | [a, b] => apply a (.some b)
    | args => .raise (.type name s!"expected 1 to 2 arguments, got {args.length}")

/-- A function of one argument or more. -/
def many (name : String) (apply : List Argument → Evaluation Value) : Builtin where
  name
  apply
    | [] => .raise (.type name "expected at least 1 argument(s), got 0")
    | args => apply args

end Builtin

namespace Argument

/-! ## Kinds of arguments -/

/-- A value that has to be a number. -/
def number (function : String) (a : Argument) : Evaluation Number := do
  match ← a.value with
  | .number x => return x
  | v => .raise (operandFault function [v])

/-- A value that has to be a text. -/
def text (function : String) (a : Argument) : Evaluation String := do
  match ← a.value with
  | .text s => return s
  | v => .raise (operandFault function [v])

/-- A value that has to be an array; null is an empty one. -/
def collection (function : String) (a : Argument) : Evaluation (List Value) := do
  match ← a.value with
  | .array items => return items
  | .null => return []
  | v => .raise (operandFault function [v])

/-- A lambda of at most so many parameters. -/
def asLambda (function : String) (available : Nat) (a : Argument) : Evaluation Lambda :=
  match a.lambda? with
  | some f =>
    if available < f.params.length then
      .raise (.type function
        s!"lambda takes at most {available} parameter(s), got {f.params.length}")
    else return f
  | none => .raise (.type function "expected a lambda argument")

/-- The values of arguments, from left to right. -/
def values : List Argument → Evaluation (List Value)
  | [] => return []
  | a :: rest => do
    let v ← a.value
    let vs ← values rest
    return v :: vs

end Argument
end Formulary
