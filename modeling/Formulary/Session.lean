/-
  Reading fields while formulas are evaluated.

  A reference to a formula field computes that field first, unless its result is
  remembered.  The fields being computed form a chain; to come back to one of
  them is a circle, and the length of the chain is limited.  A result that a
  limit had a part in depends on where the evaluation began, so it is not
  remembered, nor is any result made from it.

  * `Session`: what is remembered, and whether a limit was met;
  * `Session.readField`: the result of a formula field inside a chain;
  * `Session.answer`: the value of a reference, as evaluations ask for it.
-/
import Formulary.Expr.Eval
import Formulary.Host
import Formulary.Memo
import Formulary.Path.Selection

namespace Formulary

/-- What is remembered, and whether a limit had a part in the result at hand. -/
structure Session where
  memo : Memo
  formulas : Formulas
  limited : Bool

namespace Session

variable {δ : Type} [Host δ]

/-- The limits of evaluation under a configuration. -/
def setting (config : Config) (clock : Instant) : Setting := ⟨config.maxDepth, clock⟩

/-- The chain came back to a field. -/
def circular (chain : List String) (field : String) : Fault :=
  .cycle (chain.dropWhile (· != field) ++ [field])

/-- The chain is as long as it may be. -/
def chainTooLong (config : Config) (field : String) : Fault :=
  .type field s!"formula references nested deeper than {config.maxReferenceDepth} fields"

/-- The value of a reference: that of a formula field is read by `read`, and that
of any other field is stored. -/
def answerWith (host : δ) (read : String → Nat → Session → Result × Session)
    (path : Path) (depth : Nat) (s : Session) : Result × Session :=
  let columns := Host.columns host path.root
  match Host.formula? host path.root with
  | some _ =>
    let (result, s') := read path.root depth s
    (result.bind (path.select columns), s')
  | none =>
    match Host.value? host path.root with
    | some v => (path.select columns v, s)
    | none => (.error path.dangling, s)

/-- Computes a formula and remembers its result, unless a limit had a part in it.
At the top of the evaluation the nesting of the formula alone decides whether it
is too deep; below it, so does where the evaluation began. -/
def compute (config : Config) (clock : Instant)
    (answer : Path → Nat → Session → Result × Session)
    (field text : String) (depth : Nat) (s : Session) : Result × Session :=
  let (parsed, formulas) := s.formulas.parse field text config.maxDepth
  let inner := { s with formulas, limited := false }
  let (result, s') : Result × Session :=
    match parsed with
    | .error failure => (.error failure.toFault, inner)
    | .ok e =>
      match (e.eval (setting config clock) depth []).run answer inner with
      | (.ok v, s') => (.ok v, s')
      | (.error reason, s') =>
        (.error reason.toFault,
          { s' with limited := s'.limited || (reason.isTooDeep && 0 < depth) })
  let memo := s'.memo.evaluated
  (result, {
    memo := if s'.limited then memo else memo.store field result
    formulas := s'.formulas
    limited := s'.limited || s.limited })

/-- The result of a formula field inside a chain of fields being computed, where
`room` more of them may be. -/
def readField (host : δ) (config : Config) (clock : Instant) :
    Nat → List String → String → Nat → Session → Result × Session
  | room, chain, field, depth, s =>
    match s.memo.lookUp field with
    | (some result, memo) => (result, { s with memo })
    | (none, memo) =>
      if field ∈ chain then (.error (circular chain field), { s with memo })
      else match room with
        | 0 => (.error (chainTooLong config field), { s with memo, limited := true })
        | room + 1 =>
          match Host.formula? host field with
          | none => (.error (.reference field), { s with memo })
          | some text =>
            compute config clock
              (answerWith host (readField host config clock room (chain ++ [field])))
              field text depth { s with memo }

/-- The value of a reference outside any formula field. -/
def answer (host : δ) (config : Config) (clock : Instant) (path : Path) (depth : Nat)
    (s : Session) : Result × Session :=
  answerWith host (readField host config clock config.maxReferenceDepth []) path depth s

end Session
end Formulary
