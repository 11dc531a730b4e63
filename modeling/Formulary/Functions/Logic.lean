/-
  Functions of conditions: `and`, `or`, `not`, `if`, `empty`.

  Arguments are evaluated from left to right, and only as far as they decide the
  result.
-/
import Formulary.Functions.Argument

namespace Formulary.Functions

/-- Whether all arguments count as true; none after the first that does not is
evaluated. -/
def allTrue : List Argument → Evaluation Bool
  | [] => return true
  | a :: rest => do if (← a.value).isTruthy then allTrue rest else return false

/-- Whether an argument counts as true; none after the first that does is
evaluated. -/
def anyTrue : List Argument → Evaluation Bool
  | [] => return false
  | a :: rest => do if (← a.value).isTruthy then return true else anyTrue rest

def andFunction : Builtin := .many "and" fun args => do
  return .boolean (← allTrue args)

def orFunction : Builtin := .many "or" fun args => do
  return .boolean (← anyTrue args)

def notFunction : Builtin := .one "not" fun a => do
  return .boolean !(← a.value).isTruthy

/-- Only the chosen branch is evaluated. -/
def ifFunction : Builtin := .three "if" fun condition yes no => do
  if (← condition.value).isTruthy then yes.value else no.value

def emptyFunction : Builtin := .one "empty" fun a => do
  return .boolean (← a.value).isEmpty

def logic : List Builtin := [andFunction, orFunction, notFunction, ifFunction, emptyFunction]

end Formulary.Functions
