/-
  What an engine works with: the owner of the fields, which it reads and writes through a few
  functions, and its configuration.

  * `Host`: the functions;
  * `Host.has`: whether a host knows a field;
  * `Policy`: when formulas are computed anew;
  * `Config`: limits of nesting and the policy.
-/
import Formulary.Field
import Formulary.Value

namespace Formulary

/-! ## Hosts -/

/-- An owner of fields. -/
class Host (δ : Type) where
  /-- The stored value of a field. -/
  value? : δ → String → Option Value
  /-- The formula of a field. -/
  formula? : δ → String → Option String
  /-- The fields with formulas, in the order of the host. -/
  formulaFields : δ → List String
  /-- The declared kind of a field. -/
  kind : δ → String → FieldKind
  /-- The declared columns of a field. -/
  columns : δ → String → List Column
  /-- Takes over a computed value. -/
  push : δ → String → Value → δ
  /-- Takes over a written value. -/
  write : δ → String → Value → δ

/-- Whether a host knows a field. -/
def Host.has {δ : Type} [Host δ] (host : δ) (field : String) : Bool :=
  (Host.value? host field).isSome || (Host.formula? host field).isSome

/-! ## Configurations -/

/-- When formulas that a change affects are computed anew. -/
inductive Policy where
  /-- At once. -/
  | eager
  /-- When they are read. -/
  | whenRead
  deriving DecidableEq, Repr

def Policy.name : Policy → String
  | eager => "eager"
  | whenRead => "lazy"

/-- The policies by name. -/
def Policy.byName : List (String × Policy) :=
  [eager, whenRead].map fun policy => (policy.name, policy)

structure Config where
  /-- The most levels of expressions inside each other. -/
  maxDepth : Nat
  /-- The most formula fields computed inside each other. -/
  maxReferenceDepth : Nat
  policy : Policy
  deriving DecidableEq, Repr

/-- The configuration where nothing is configured. -/
def Config.standard : Config := ⟨64, 128, .eager⟩

end Formulary
