/-
  Engines in step with their hosts.

  * `Formulas.Faithful`: what is known of the formulas of fields is what their
    texts denote;
  * `references`, `Host.Refers`: the fields that a text refers to as a formula, and that
    a field refers to;
  * `Engine.InStep`: the graph holds the references of the formulas of the host;
  * `Engine.inStep_build`, `Engine.inStep_index`: an engine is in step when it is
    built, and again when a field that changed is indexed.
-/
import Formulary.Engine
import Formulary.Proofs.Circles
import Formulary.Proofs.FreeRoots
import Formulary.Proofs.Owner

namespace Formulary

/-! ## Formulas -/

/-- What is known of formulas is what their texts denote. -/
def Formulas.Faithful (limit : Nat) (formulas : Formulas) : Prop :=
  ∀ field text parsed, formulas.find? field = some (text, parsed) → parsed = Expr.ofText limit text

namespace Formulas.Faithful

variable {limit : Nat} {formulas : Formulas}

theorem empty (limit : Nat) : Faithful limit (.empty : Formulas) := by
  intro field text parsed h
  simp at h

theorem insert (h : formulas.Faithful limit) (field text : String) :
    Faithful limit (NameMap.insert formulas field (text, Expr.ofText limit text)) := by
  intro other text' parsed hfind
  rw [NameMap.find?_insert] at hfind
  split at hfind
  · obtain ⟨rfl, rfl⟩ := Prod.mk.inj (Option.some.inj hfind)
    rfl
  · exact h other text' parsed hfind

theorem erase (h : formulas.Faithful limit) (field : String) :
    Faithful limit (NameMap.erase formulas field) := by
  intro other text parsed hfind
  rw [NameMap.find?_erase] at hfind
  split at hfind
  · simp at hfind
  · exact h other text parsed hfind

theorem parse (h : formulas.Faithful limit) (field text : String) :
    (formulas.parse field text limit).1 = Expr.ofText limit text ∧
      (formulas.parse field text limit).2.Faithful limit := by
  unfold Formulas.parse
  cases hfind : formulas.find? field with
  | none => exact ⟨rfl, h.insert field text⟩
  | some entry =>
    obtain ⟨old, parsed⟩ := entry
    simp only
    split
    next heq => exact ⟨heq ▸ h field old parsed hfind, h⟩
    next => exact ⟨rfl, h.insert field text⟩

end Formulas.Faithful

/-- The fields that a text refers to as a formula; a text that is no formula
refers to nothing. -/
def references (limit : Nat) (text : String) : NameSet :=
  match Expr.ofText limit text with
  | .ok e => e.references
  | .error _ => .empty

/-- The formula of a field refers to another field. -/
def Host.Refers {δ : Type} [Host δ] (limit : Nat) (host : δ) (u v : String) : Prop :=
  ∃ text, Host.formula? host u = some text ∧ v ∈ references limit text

namespace Engine

variable {δ : Type}

/-! ## In step -/

/-- The graph of an engine and its formulas are those of its host. -/
structure InStep [Host δ] (engine : Engine δ) : Prop where
  mirrored : engine.graph.Mirrored
  precedents : ∀ field, engine.graph.precedents.find? field =
    (Host.formula? engine.host field).map (references engine.config.maxDepth)
  formulas : engine.formulas.Faithful engine.config.maxDepth

section

variable [Host δ] {engine : Engine δ} {field other : String}

theorem InStep.with_memo (h : engine.InStep) (memo : Memo) : InStep { engine with memo } :=
  ⟨h.mirrored, h.precedents, h.formulas⟩

theorem InStep.with_clock (h : engine.InStep) (clock : Instant) : InStep { engine with clock } :=
  ⟨h.mirrored, h.precedents, h.formulas⟩

theorem InStep.reads_iff (h : engine.InStep) :
    engine.graph.Reads field other ↔ ∃ text, Host.formula? engine.host field = some text ∧
      other ∈ references engine.config.maxDepth text := by
  unfold Graph.Reads
  rw [Graph.mem_precedentsOf, h.precedents]
  cases Host.formula? engine.host field with
  | none => simp
  | some text => simp

theorem InStep.reads_eq (h : engine.InStep) :
    engine.graph.Reads = Host.Refers engine.config.maxDepth engine.host := by
  funext u v
  exact propext h.reads_iff

theorem InStep.formula_of_reads (h : engine.InStep) (hreads : engine.graph.Reads field other) :
    (Host.formula? engine.host field).isSome := by
  obtain ⟨text, htext, -⟩ := h.reads_iff.1 hreads
  rw [htext]
  rfl

theorem InStep.mem_fields (h : engine.InStep) :
    field ∈ engine.graph.fields ↔ (Host.formula? engine.host field).isSome := by
  rw [Graph.mem_fields, h.precedents, Option.isSome_map]

/-! ## Indexing -/

theorem index_eq (engine : Engine δ) (field : String)
    (hformulas : engine.formulas.Faithful engine.config.maxDepth) :
    ∃ graph formulas, engine.index field = { engine with graph, formulas } ∧
      formulas.Faithful engine.config.maxDepth ∧
      (engine.graph.Mirrored → graph.Mirrored) ∧
      ∀ other, graph.precedents.find? other =
        if field = other then
          (Host.formula? engine.host field).map (references engine.config.maxDepth)
        else engine.graph.precedents.find? other := by
  unfold index
  cases Host.formula? engine.host field with
  | none =>
    exact ⟨_, _, rfl, hformulas, fun h => Graph.mirrored_remove h field,
      fun other => Graph.find?_precedents_remove⟩
  | some text =>
    have hparse := hformulas.parse field text
    dsimp only
    generalize engine.formulas.parse field text engine.config.maxDepth = r at hparse ⊢
    obtain ⟨parsed, formulas⟩ := r
    obtain ⟨rfl, hformulas'⟩ := hparse
    exact ⟨_, _, rfl, hformulas', fun h => Graph.mirrored_set h field _,
      fun other => Graph.find?_precedents_set⟩

/-- To index the one field that changed brings an engine back in step. -/
theorem inStep_index (hmirrored : engine.graph.Mirrored)
    (hformulas : engine.formulas.Faithful engine.config.maxDepth)
    (hothers : ∀ other, field ≠ other → engine.graph.precedents.find? other =
      (Host.formula? engine.host other).map (references engine.config.maxDepth)) :
    (engine.index field).InStep := by
  obtain ⟨graph, formulas, heq, hformulas', hgraph, hfind⟩ := index_eq engine field hformulas
  rw [heq]
  refine ⟨hgraph hmirrored, fun other => ?_, hformulas'⟩
  rw [hfind]
  split
  next h => rw [h]
  next h => exact hothers other h

end

/-- Indexing some fields leaves all but the graph and the formulas as it is. -/
theorem foldl_index [Host δ] (fields : List String) (engine : Engine δ)
    (hmirrored : engine.graph.Mirrored)
    (hformulas : engine.formulas.Faithful engine.config.maxDepth) :
    ∃ graph formulas, fields.foldl index engine = { engine with graph, formulas } ∧
      graph.Mirrored ∧ formulas.Faithful engine.config.maxDepth ∧
      ∀ other, graph.precedents.find? other =
        if other ∈ fields then
          (Host.formula? engine.host other).map (references engine.config.maxDepth)
        else engine.graph.precedents.find? other := by
  induction fields generalizing engine with
  | nil => exact ⟨_, _, rfl, hmirrored, hformulas, fun other => by simp⟩
  | cons field rest ih =>
    obtain ⟨graph, formulas, heq, hformulas', hgraph, hfind⟩ := index_eq engine field hformulas
    obtain ⟨graph', formulas', heq', hgraph', hformulas'', hfind'⟩ :=
      ih { engine with graph, formulas } (hgraph hmirrored) hformulas'
    refine ⟨graph', formulas', by rw [List.foldl_cons, heq, heq'], hgraph', hformulas'',
      fun other => ?_⟩
    rw [hfind', hfind]
    by_cases h : field = other
    · simp [h]
    · simp [h, Ne.symm h]

theorem build_eq [Host δ] (config : Config) (clock : Instant) (host : δ) :
    ∃ graph formulas, build config clock host =
      ⟨host, config, clock, graph, .empty, formulas⟩ ∧
      graph.Mirrored ∧ formulas.Faithful config.maxDepth ∧
      ∀ other, graph.precedents.find? other =
        if other ∈ Host.formulaFields host then
          (Host.formula? host other).map (references config.maxDepth)
        else none :=
  foldl_index (Host.formulaFields host) ⟨host, config, clock, .empty, .empty, .empty⟩
    Graph.mirrored_empty (.empty _)

theorem host_build [Host δ] (config : Config) (clock : Instant) (host : δ) :
    (build config clock host).host = host := by
  obtain ⟨graph, formulas, heq, -⟩ := build_eq config clock host
  rw [heq]

theorem config_build [Host δ] (config : Config) (clock : Instant) (host : δ) :
    (build config clock host).config = config := by
  obtain ⟨graph, formulas, heq, -⟩ := build_eq config clock host
  rw [heq]

theorem clock_build [Host δ] (config : Config) (clock : Instant) (host : δ) :
    (build config clock host).clock = clock := by
  obtain ⟨graph, formulas, heq, -⟩ := build_eq config clock host
  rw [heq]

/-- An engine is in step when it is built. -/
theorem inStep_build [Owner δ] (config : Config) (clock : Instant) (host : δ) :
    (build config clock host).InStep := by
  obtain ⟨graph, formulas, heq, hgraph, hformulas, hfind⟩ := build_eq config clock host
  rw [heq]
  refine ⟨hgraph, fun field => ?_, hformulas⟩
  rw [hfind]
  split
  next => rfl
  next h =>
    rw [Owner.mem_formulaFields, Option.not_isSome_iff_eq_none] at h
    simp [h]

end Engine
end Formulary
