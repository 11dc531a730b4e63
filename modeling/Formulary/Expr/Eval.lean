/-
  The evaluation that an expression denotes.

  * `Functions.find?`: the function of a name, in any case of letters;
  * `Setting`: the limit of nesting and the time that `now` tells;
  * `Expr.eval`: the evaluation of an expression in a scope at a depth.

  The definition follows the expression.  An argument of a call becomes its value
  and the lambda that it is; what becomes of them is up to the function.
-/
import Formulary.Functions.Collection
import Formulary.Functions.Date
import Formulary.Functions.Logic
import Formulary.Functions.Numeric
import Formulary.Functions.Text
import Formulary.Operators
import Formulary.Path.Selection

namespace Formulary

/-! ## Functions by name -/

namespace Functions

/-- All functions. -/
def catalog (clock : Instant) : List Builtin :=
  logic ++ texts ++ numeric ++ dates clock ++ collections

/-- The function of a name, in any case of letters. -/
def find? (clock : Instant) (name : String) : Option Builtin :=
  let lower := Text.lower name
  (catalog clock).find? fun f => Text.lower f.name == lower

/-- What the function of a name makes of its arguments. -/
def call (clock : Instant) (name : String) (args : List Argument) : Evaluation Value :=
  match find? clock name with
  | some f => f.apply args
  | none => .raise (.type name "unknown function")

end Functions

/-! ## Expressions -/

/-- What an evaluation depends on beside its expression. -/
structure Setting where
  /-- The most levels of expressions inside each other. -/
  limit : Nat
  /-- The time that `now` tells. -/
  clock : Instant
  deriving DecidableEq, Repr

namespace Expr

/-- A lambda stands outside an argument. -/
def strayLambda : Fault := .type "lambda" "a lambda can only be passed to an array function"

/-- The value of a reference: a path into a bound name, or else a field. -/
def evalReference (depth : Nat) (scope : Scope) (path : Path) : Evaluation Value :=
  match scope.lookup? path.root with
  | some v => .ofResult (path.select [] v)
  | none => .field path depth

mutual

/-- The evaluation of an expression below `depth` others. -/
def eval (setting : Setting) (depth : Nat) (scope : Scope) (e : Expr) : Evaluation Value :=
  if setting.limit ≤ depth then .stop (.tooDeep setting.limit)
  else match e with
    | literal v => return v
    | reference path => evalReference (depth + 1) scope path
    | unary op operand => do
      .ofResult (op.apply (← eval setting (depth + 1) scope operand))
    | binary .and left right => do
      if (← eval setting (depth + 1) scope left).isTruthy then
        return .boolean (← eval setting (depth + 1) scope right).isTruthy
      else return .boolean false
    | binary .or left right => do
      if (← eval setting (depth + 1) scope left).isTruthy then return .boolean true
      else return .boolean (← eval setting (depth + 1) scope right).isTruthy
    | binary op left right => do
      let v ← eval setting (depth + 1) scope left
      let w ← eval setting (depth + 1) scope right
      .ofResult (op.apply v w)
    | call name args => Functions.call setting.clock name (arguments setting (depth + 1) scope args)
    | array items => return .array (← evalAll setting (depth + 1) scope items)
    | .index target position => do
      let v ← eval setting (depth + 1) scope target
      let w ← eval setting (depth + 1) scope position
      .ofResult (v.elementAt w)
    | lambda _ _ => .raise strayLambda

/-- The evaluation of expressions from left to right. -/
def evalAll (setting : Setting) (depth : Nat) (scope : Scope) : List Expr →
    Evaluation (List Value)
  | [] => return []
  | e :: rest => do
    let v ← eval setting depth scope e
    let vs ← evalAll setting depth scope rest
    return v :: vs

/-- The lambda that an expression is. -/
def lambda? (setting : Setting) (depth : Nat) (scope : Scope) : Expr → Option Lambda
  | lambda params body => some ⟨params, fun frame => eval setting depth (frame :: scope) body⟩
  | _ => none

/-- Expressions as arguments. -/
def arguments (setting : Setting) (depth : Nat) (scope : Scope) : List Expr → List Argument
  | [] => []
  | e :: rest =>
    ⟨eval setting depth scope e, lambda? setting depth scope e⟩ ::
      arguments setting depth scope rest

end

end Expr
end Formulary
