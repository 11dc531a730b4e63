/-
  Expressions: the trees that formulas denote.

  * `UnaryOp`, `BinaryOp`: the operators, and how tightly the binary ones bind;
  * `Expr`: constants, references, operators, calls, arrays, elements of arrays
    and lambdas;
  * `Expr.references`: the fields that an expression refers to, which are the roots of its
    references other than the parameters of the lambdas around them.
-/
import Formulary.Names.Set
import Formulary.Path
import Formulary.Token
import Formulary.Value

namespace Formulary

inductive UnaryOp where
  | neg | not
  deriving DecidableEq, Repr

inductive BinaryOp where
  | add | sub | mul | div
  | eq | notEq | lt | gt | le | ge
  | and | or
  deriving DecidableEq, Repr

namespace BinaryOp

def symbol : BinaryOp → String
  | add => "+"
  | sub => "-"
  | mul => "*"
  | div => "/"
  | eq => "=="
  | notEq => "!="
  | lt => "<"
  | gt => ">"
  | le => "<="
  | ge => ">="
  | and => "&&"
  | or => "||"

/-- How tightly an operator binds. -/
def level : BinaryOp → Nat
  | or => 0
  | and => 1
  | eq | notEq => 2
  | lt | gt | le | ge => 3
  | add | sub => 4
  | mul | div => 5

/-- The levels, the loosest first. -/
def levels : List Nat := [0, 1, 2, 3, 4, 5]

end BinaryOp

/-- The binary operator that a sign stands for. -/
def Sign.binary? : Sign → Option BinaryOp
  | plus => some .add
  | minus => some .sub
  | times => some .mul
  | slash => some .div
  | equal | doubleEqual => some .eq
  | bangEqual | lessGreater => some .notEq
  | less => some .lt
  | greater => some .gt
  | lessEqual => some .le
  | greaterEqual => some .ge
  | doubleAnd => some .and
  | doubleOr => some .or
  | bang => none

/-- The operator that a sign stands for before an operand. -/
def Sign.unary? : Sign → Option UnaryOp
  | minus => some .neg
  | bang => some .not
  | _ => none

/-- A formula as a tree. -/
inductive Expr where
  /-- A constant: a number, a text, a truth value or null. -/
  | literal (v : Value)
  /-- A field, or a parameter of a lambda around it, and a path into its value. -/
  | reference (path : Path)
  | unary (op : UnaryOp) (operand : Expr)
  | binary (op : BinaryOp) (left right : Expr)
  /-- A call, with the name as it was written. -/
  | call (name : String) (args : List Expr)
  | array (items : List Expr)
  | index (target position : Expr)
  /-- A function of its parameters, which can only be an argument. -/
  | lambda (params : List String) (body : Expr)
  deriving Repr, Inhabited

/-! ## References -/

namespace Expr

mutual

/-- The roots of references that are not among the bound names, from left to
right. -/
def freeRoots (bound : List String) : Expr → List String
  | literal _ => []
  | reference path => if path.root ∈ bound then [] else [path.root]
  | unary _ operand => freeRoots bound operand
  | binary _ left right => freeRoots bound left ++ freeRoots bound right
  | call _ args => freeRootsAll bound args
  | array items => freeRootsAll bound items
  | .index target position => freeRoots bound target ++ freeRoots bound position
  | lambda params body => freeRoots (params ++ bound) body

def freeRootsAll (bound : List String) : List Expr → List String
  | [] => []
  | e :: rest => freeRoots bound e ++ freeRootsAll bound rest

end

/-- The fields that an expression refers to. -/
def references (e : Expr) : NameSet := NameSet.ofList (freeRoots [] e)

end Expr
end Formulary
