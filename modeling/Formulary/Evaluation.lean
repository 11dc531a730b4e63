/-
  Evaluations: computations that ask for the values of fields.

  An evaluation is a tree.  Its inner nodes ask for a reference and go on with
  any value that may be answered; its leaves hold a result or the reason to stop.
  What an expression asks for is thus a property of its evaluation alone, and
  `Evaluation.run` answers the questions from a state that answers may change.

  * `Scope.lookup?`: the value of a parameter of the lambdas around an expression, which is
    not asked for;
  * `Evaluation.bind`, `Evaluation.ofResult`: evaluations one after the other,
    and results as evaluations;
  * `Evaluation.run`: a failing answer ends the run, as does a leaf.
-/
import Formulary.Path
import Formulary.Value

namespace Formulary

/-! ## Scopes -/

/-- The parameters of one lambda and their values, in order. -/
abbrev Frame := List (String × Value)

/-- Frames, the innermost first. -/
abbrev Scope := List Frame

/-- The value of a name: of two parameters of one name the last counts. -/
def Frame.lookup? (name : String) (frame : Frame) : Option Value :=
  frame.reverse.lookup name

/-- The value of a name in the innermost frame that binds it. -/
def Scope.lookup? (name : String) (scope : Scope) : Option Value :=
  scope.findSome? (Frame.lookup? name)

/-! ## Evaluations -/

/-- Why an evaluation stopped before it had a result. -/
inductive Stop where
  | raised (fault : Fault)
  /-- It was to go below the limit of nesting. -/
  | tooDeep (limit : Nat)
  deriving DecidableEq, Repr

namespace Stop

def toFault : Stop → Fault
  | raised fault => fault
  | tooDeep limit => .type "evaluate" s!"expression nested deeper than {limit} levels"

def isTooDeep : Stop → Bool
  | raised _ => false
  | tooDeep _ => true

end Stop

/-- A computation that asks for fields. -/
inductive Evaluation (α : Type) where
  | done (a : α)
  | stop (reason : Stop)
  /-- Asks for a reference at a depth of nesting and goes on with the answer. -/
  | ask (path : Path) (depth : Nat) (next : Value → Evaluation α)

namespace Evaluation

variable {α β : Type}

/-- One evaluation, and then another that depends on its result. -/
def bind : Evaluation α → (α → Evaluation β) → Evaluation β
  | done a, f => f a
  | stop reason, _ => stop reason
  | ask path depth next, f => ask path depth fun v => bind (next v) f

instance : Monad Evaluation where
  pure := done
  bind := bind

def raise (fault : Fault) : Evaluation α := stop (.raised fault)

/-- A result without questions. -/
def ofResult : Except Fault α → Evaluation α
  | .ok a => done a
  | .error fault => raise fault

/-- The value of a reference; a fault in the place of a value is raised. -/
def field (path : Path) (depth : Nat) : Evaluation Value :=
  ask path depth fun v => ofResult v.toResult

/-- Answers the questions one after the other; a failing answer is the result. -/
def run {σ : Type} (answer : Path → Nat → σ → Except Fault Value × σ) :
    Evaluation α → σ → Except Stop α × σ
  | done a, s => (.ok a, s)
  | stop reason, s => (.error reason, s)
  | ask path depth next, s =>
    match answer path depth s with
    | (.ok v, s') => run answer (next v) s'
    | (.error fault, s') => (.error (.raised fault), s')

end Evaluation

/-- A result whose failure may be that it went too deep, as a plain result. -/
def Stop.settle {α : Type} : Except Stop α → Except Fault α
  | .ok a => .ok a
  | .error reason => .error reason.toFault

end Formulary
