/-
  Graphs of engines.

  The graph of an engine is only ever changed where a field is indexed or removed, so it
  was made of the empty one by changes, and then its precedents determine it.  These are
  the references of the formulas of the host, and so the graph is that of an engine built
  anew.

  * `Engine.made_run`: the graph of every run is made by changes;
  * `Engine.graph_eq_rebuilt`: it is the graph of an engine newly built over the host.
-/
import Formulary.Proofs.Run

namespace Formulary.Engine

variable {δ : Type}

/-! ## Made by changes -/

theorem made_index [Host δ] (engine : Engine δ) (h : engine.graph.Made) (field : String) :
    (engine.index field).graph.Made := by
  unfold index
  cases Host.formula? engine.host field with
  | none => exact h.change (.remove field)
  | some text => exact h.change (.set field _)

theorem made_build [Host δ] (config : Config) (clock : Instant) (host : δ) :
    (build config clock host).graph.Made := by
  have hfold : ∀ (fields : List String) (engine : Engine δ), engine.graph.Made →
      (fields.foldl index engine).graph.Made := by
    intro fields
    induction fields with
    | nil => exact fun _ h => h
    | cons field rest ih => exact fun engine h => ih _ (made_index engine h field)
  exact hfold _ _ .empty

section

variable [Owner δ] {engine : Engine δ}

theorem made_perform (hinStep : engine.InStep) (h : engine.graph.Made) (action : Action) :
    (engine.perform action).2.graph.Made := by
  rcases follows_perform hinStep action with hf | ⟨e, rfl, hf⟩
  · rwa [hf.graph]
  · rw [hf.graph]
    cases e with
    | setFormula id formula? =>
      apply made_index
      exact h
    | add spec =>
      apply made_index
      exact h
    | remove id => exact h.change (.remove id)

theorem made_run (hinStep : engine.InStep) (h : engine.graph.Made) (actions : List Action) :
    (engine.performAll actions).graph.Made := by
  induction actions generalizing engine with
  | nil => exact h
  | cons action rest ih =>
    exact ih (inStep_perform hinStep action).1 (made_perform hinStep h action)

/-! ## Built anew -/

/-- Two engines in step with one host have the same graph, if changes made both. -/
theorem InStep.graph_eq {engine' : Engine δ} (h : engine.InStep) (h' : engine'.InStep)
    (hmade : engine.graph.Made) (hmade' : engine'.graph.Made) (hhost : engine'.host = engine.host)
    (hlimit : engine'.config.maxDepth = engine.config.maxDepth) : engine.graph = engine'.graph :=
  hmade.eq_of_precedents hmade' fun f => by
    rw [h.precedents, h'.precedents, hhost, hlimit]

/-- **Main result.** After every run the graph is that of an engine newly built over the
host as it then is: the fields with formulas are those that have precedents, which are the
references of their formulas, and the dependents mirror them without empty entries.  Any
sequence of changes of the empty graph keeps the two directions in agreement, too. -/
theorem graph_eq_rebuilt (config : Config) (clock clock' : Instant) (host : δ) :
    (∀ actions : List Action,
      let engine := (build config clock host).performAll actions
      engine.graph = (build config clock' engine.host).graph ∧
        (∀ f, engine.graph.precedents.find? f =
          (Host.formula? engine.host f).map (references config.maxDepth)) ∧
        engine.graph.Mirrored ∧ Graph.Tidy engine.graph.dependents) ∧
      ∀ changes : List Graph.Change,
        let graph := changes.foldl Graph.change .empty
        graph.Mirrored ∧ Graph.Tidy graph.dependents := by
  refine ⟨fun actions => ?_, fun changes => ?_⟩
  · have hbuild := inStep_build config clock host
    have hmade := made_run hbuild (made_build config clock host) actions
    obtain ⟨hinStep, hconfig⟩ := inStep_run hbuild actions
    rw [config_build] at hconfig
    generalize (build config clock host).performAll actions = engine at hmade hinStep hconfig
    refine ⟨?_, fun f => ?_, hmade.mirrored, hmade.tidy⟩
    · refine hinStep.graph_eq (inStep_build config clock' engine.host) hmade
        (made_build config clock' engine.host) (host_build ..) ?_
      rw [config_build, hconfig]
    · rw [hinStep.precedents, hconfig]
  · have hmade : (changes.foldl Graph.change .empty).Made := ⟨changes, rfl⟩
    exact ⟨hmade.mirrored, hmade.tidy⟩

end

end Formulary.Engine
