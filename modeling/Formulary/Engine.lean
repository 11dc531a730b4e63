/-
  The engine: it keeps the computed values of a host in step with its formulas.

  * `Engine.build`: an engine over a host;
  * `Engine.update`, `Engine.formulaChanged`, `Engine.fieldRemoved`: what follows
    from a change;
  * `Engine.recompute`: computes formulas in the order of their references and
    hands new values to the host;
  * `Engine.value`, `Engine.evaluate`: reads a field or an expression.
-/
import Formulary.Graph.Components
import Formulary.Graph.Cycles
import Formulary.Session

namespace Formulary

/-- The results of formula fields. -/
abbrev Results := NameMap Result

/-- A host, and what the engine knows about it. -/
structure Engine (δ : Type) where
  host : δ
  config : Config
  /-- The time that `now` tells. -/
  clock : Instant
  graph : Graph
  memo : Memo
  formulas : Formulas

namespace Engine

variable {δ : Type} [Host δ]

/-! ## The graph -/

/-- Records what the formula of a field refers to; a text that is no formula
refers to nothing. -/
def index (engine : Engine δ) (field : String) : Engine δ :=
  match Host.formula? engine.host field with
  | none => { engine with graph := engine.graph.remove field }
  | some text =>
    let (parsed, formulas) := engine.formulas.parse field text engine.config.maxDepth
    let precedents := match parsed with
      | .ok e => e.references
      | .error _ => .empty
    { engine with formulas, graph := engine.graph.set field precedents }

/-- An engine over a host that remembers nothing yet. -/
def build (config : Config) (clock : Instant) (host : δ) : Engine δ :=
  (Host.formulaFields host).foldl index
    { host, config, clock, graph := .empty, memo := .empty, formulas := .empty }

/-! ## Evaluation -/

/-- What is remembered, at the start of an evaluation. -/
def session (engine : Engine δ) : Session := ⟨engine.memo, engine.formulas, false⟩

/-- Takes over what an evaluation left to remember. -/
def resume (engine : Engine δ) (s : Session) : Engine δ :=
  { engine with memo := s.memo, formulas := s.formulas }

/-- The result of a formula field, computed if it is not remembered. -/
def read (engine : Engine δ) (field : String) : Result × Engine δ :=
  let (result, s) := Session.readField engine.host engine.config engine.clock
    engine.config.maxReferenceDepth [] field 0 engine.session
  (result, engine.resume s)

/-- The value of an expression, which is not remembered. -/
def evaluate (engine : Engine δ) (text : String) : Result × Engine δ :=
  match Expr.ofText engine.config.maxDepth text with
  | .error failure => (.error failure.toFault, engine)
  | .ok e =>
    let (result, s) :=
      (e.eval (Session.setting engine.config engine.clock) 0 []).run
        (Session.answer engine.host engine.config engine.clock) engine.session
    (Stop.settle result, engine.resume s)

/-! ## Computing in order -/

/-- Whether a field has a formula whose result is not remembered. -/
def isStale (engine : Engine δ) (field : String) : Bool :=
  engine.memo.state field == .dirty && (Host.formula? engine.host field).isSome

/-- The targets, and the stale fields that they refer to, directly or through
others. -/
def withStalePrecedents (engine : Engine δ) (targets : NameSet) : NameSet :=
  let next field := (engine.graph.precedentsOf field).filter engine.isStale
  Graph.reach next (targets.names ++ engine.graph.names) targets.names .empty

/-- The fault of the fields of a group that refer to each other. -/
def groupFault (group : List String) : Fault := .cycle (group ++ group.take 1)

/-- Computes one field; a field on a circle gets the fault of its group. -/
def computeField (engine : Engine δ) (fault? : Option Fault) (field : String) :
    Result × Engine δ :=
  match fault? with
  | some fault =>
    (.error fault, { engine with memo := engine.memo.store field (.error fault) })
  | none => engine.read field

/-- What a computation in order has come to: the results of the targets, and the
targets that were not remembered, in order. -/
structure Progress (δ : Type) where
  engine : Engine δ
  results : Results
  fresh : List String

/-- Computes one more field. -/
def advance (targets : NameSet) (fault? : Option Fault) (p : Progress δ) (field : String) :
    Progress δ :=
  let wasDirty := p.engine.memo.state field == .dirty
  let (result, engine) := p.engine.computeField fault? field
  if field ∈ targets then
    ⟨engine, p.results.insert field result, if wasDirty then p.fresh ++ [field] else p.fresh⟩
  else { p with engine }

/-- Computes the fields of one more group. -/
def advanceGroup (targets : NameSet) (p : Progress δ) (group : List String) : Progress δ :=
  let fault? := if p.engine.graph.isCyclic group then some (groupFault group) else none
  group.foldl (advance targets fault?) p

/-- Computes targets after the stale fields that they refer to, so that every
formula reads only remembered results. -/
def computeInOrder (engine : Engine δ) (targets : NameSet) : Progress δ :=
  let groups := engine.graph.components (engine.withStalePrecedents targets)
  groups.foldl (advanceGroup targets) ⟨engine, .empty, []⟩

/-- Hands the value that a field shows for its result to the host. -/
def push (results : Results) (engine : Engine δ) (field : String) : Engine δ :=
  match results.find? field with
  | some result =>
    let shown := Value.shown (Host.kind engine.host field) result
    { engine with host := Host.push engine.host field shown }
  | none => engine

/-- Computes the formula fields among some fields and hands the values of those
that were not remembered to the host. -/
def recompute (engine : Engine δ) (fields : NameSet) : Results × Engine δ :=
  let targets := NameSet.ofList
    (fields.names.filter fun field => (Host.formula? engine.host field).isSome)
  let p := engine.computeInOrder targets
  (p.results, p.fresh.foldl (push p.results) p.engine)

/-- Forgets all results and computes every formula field. -/
def evaluateAll (engine : Engine δ) : Results × Engine δ :=
  recompute { engine with memo := engine.memo.clear } engine.graph.fields

/-- The value of a field, computed if it has a formula. -/
def value (engine : Engine δ) (field : String) : Result × Engine δ :=
  match Host.formula? engine.host field with
  | some _ =>
    let p := engine.computeInOrder (NameSet.ofList [field])
    match p.results.find? field with
    | some result => (result, p.engine)
    | none => p.engine.read field
  | none =>
    match Host.value? engine.host field with
    | some v => (v.toResult, engine)
    | none => (.error (.reference field), engine)

/-! ## Changes -/

/-- Forgets the results of some fields and of all that depend on them; these
fields. -/
def invalidate (engine : Engine δ) (seeds : List String) : NameSet × Engine δ :=
  let affected := engine.graph.affected seeds
  (affected, { engine with memo := affected.names.foldl Memo.forget engine.memo })

/-- Forgets what a change of a field affects, and computes it anew if the policy
is to do so at once. -/
def react (engine : Engine δ) (field : String) : Results × Engine δ :=
  let (affected, engine) := engine.invalidate [field]
  match engine.config.policy with
  | .eager => engine.recompute affected
  | .whenRead => (.empty, engine)

/-- Writes a value. -/
def update (engine : Engine δ) (field : String) (v : Value) : Results × Engine δ :=
  react { engine with host := Host.write engine.host field v } field

/-- The host gave a field another formula, or none. -/
def formulaChanged (engine : Engine δ) (field : String) : Results × Engine δ :=
  (index { engine with formulas := engine.formulas.erase field } field).react field

/-- The host removed a field. -/
def fieldRemoved (engine : Engine δ) (field : String) : Results × Engine δ :=
  react { engine with
    graph := engine.graph.remove field
    formulas := engine.formulas.erase field } field

/-- Whether the result of a formula field is remembered; other fields are always
clean. -/
def fieldState (engine : Engine δ) (field : String) : FieldState :=
  match Host.formula? engine.host field with
  | some _ => engine.memo.state field
  | none => .clean

end Engine
end Formulary
