/-
  What depends on some fields.

  * `Graph.latest`: what a field refers to after some changes of a graph, which is what the
    last change of the field says;
  * `Graph.precedentsOf_changes`: this is what the graph tells, whatever came before;
  * `Engine.invalidate_forgets_dependents`: to invalidate some fields returns these and all
    that depend on them, and forgets the results of exactly these.
-/
import Formulary.Proofs.Operations
import Mathlib

namespace Formulary

open Relation

namespace Graph

/-- The field that a change is about. -/
def Change.field : Change → String
  | set field _ => field
  | remove field => field

/-- What the field of a change refers to afterwards. -/
def Change.precedents : Change → NameSet
  | set _ precedents => precedents
  | remove _ => .empty

/-- What a field refers to after some changes: what the last one of the field says. -/
def latest (changes : List Change) (field : String) : NameSet :=
  changes.foldl (fun names c => if c.field = field then c.precedents else names) .empty

theorem latest_concat (changes : List Change) (c : Change) (u : String) :
    latest (changes ++ [c]) u = if c.field = u then c.precedents else latest changes u := by
  simp only [latest, List.foldl_append, List.foldl_cons, List.foldl_nil]

theorem precedentsOf_change (g : Graph) (c : Change) (u : String) :
    (g.change c).precedentsOf u =
      if c.field = u then c.precedents.names else g.precedentsOf u := by
  cases c with
  | set field precedents =>
    show ((g.set field precedents).precedents.find? u).elim [] NameSet.names = _
    rw [find?_precedents_set]
    by_cases h : field = u
    · simp [h, Change.field, Change.precedents]
    · simp [h, Change.field, precedentsOf]
  | remove field =>
    show ((g.remove field).precedents.find? u).elim [] NameSet.names = _
    rw [find?_precedents_remove]
    by_cases h : field = u
    · simp [h, Change.field, Change.precedents, NameSet.empty]
    · simp [h, Change.field, precedentsOf]

/-- A graph tells of every field what the last change of it said. -/
theorem precedentsOf_changes (changes : List Change) (u : String) :
    (changes.foldl change .empty).precedentsOf u = (latest changes u).names := by
  induction changes using List.reverseRecOn with
  | nil => rfl
  | append_singleton changes c ih =>
    rw [List.foldl_append, List.foldl_cons, List.foldl_nil, precedentsOf_change, ih, latest_concat]
    split
    · rfl
    · rfl

end Graph

namespace Engine

/-- **Main result.** In any graph that changes made, and whatever is remembered, to invalidate
some fields returns those from which a chain of references leads to one of them, which are
those that are returned for each of them alone; the results of exactly these fields are
forgotten, and nothing else is changed. -/
theorem invalidate_forgets_dependents {δ : Type} {engine : Engine δ}
    {changes : List Graph.Change} (hgraph : engine.graph = changes.foldl Graph.change .empty)
    (seeds : List String) :
    let step := engine.invalidate seeds
    step.1 = engine.graph.affected seeds ∧
      (∀ y, y ∈ step.1 ↔
        ∃ s ∈ seeds, ReflTransGen (fun u v => v ∈ Graph.latest changes u) y s) ∧
      (∀ y, y ∈ step.1 ↔ ∃ s ∈ seeds, y ∈ (engine.invalidate [s]).1) ∧
      (∀ y, step.2.known y = if y ∈ step.1 then none else engine.known y) ∧
      ∃ results, step.2 = { engine with memo := ⟨results, engine.memo.counts⟩ } := by
  intro step
  have hmade : engine.graph.Made := ⟨changes, hgraph⟩
  have hreads : engine.graph.Reads = fun u v => v ∈ Graph.latest changes u := by
    funext u v
    show (v ∈ engine.graph.precedentsOf u) = _
    rw [hgraph, Graph.precedentsOf_changes]
    rfl
  have hmem : ∀ (seeds : List String) (y : String), y ∈ (engine.invalidate seeds).1 ↔
      ∃ s ∈ seeds, ReflTransGen engine.graph.Reads y s :=
    fun seeds y => Graph.mem_affected_iff hmade.mirrored
  obtain ⟨memo, heq, hknown⟩ := invalidate_eq engine seeds
  have hcounts := counts_invalidate engine seeds
  refine ⟨rfl, hreads ▸ hmem seeds, fun y => ?_, ?_, memo.results, ?_⟩
  · rw [hmem]
    simp only [hmem, List.mem_singleton, exists_eq_left]
  · show ∀ y, (engine.invalidate seeds).2.known y = _
    rw [heq]
    exact hknown
  · rw [heq] at hcounts
    show (engine.invalidate seeds).2 = _
    rw [heq, ← show memo.counts = engine.memo.counts from hcounts]

/-- Two fields on a circle, of which one refers to a plain field; a field that refers to itself;
and one that does not refer to the circle any more. -/
def looped : List Graph.Change :=
  [.set "c" (.ofList ["b"]), .set "b" (.ofList ["a", "c"]), .set "d" (.ofList ["d"]),
    .set "e" (.ofList ["c"]), .set "f" (.ofList ["b"]), .set "e" (.ofList ["d"]), .remove "f"]

/-- Results of all these fields are remembered. -/
def loopedEngine : Engine Document where
  host := .empty
  config := .standard
  clock := ⟨0, 0⟩
  graph := looped.foldl Graph.change .empty
  memo :=
    { Memo.empty with
      results := .ofList (["b", "c", "d", "e", "f"].map fun f => (f, .ok (.boolean true))) }
  formulas := .empty

/-- Of the fields only the two on the circle depend on the plain one. -/
theorem invalidate_forgets_dependents_looped :
    loopedEngine.graph = looped.foldl Graph.change .empty ∧
      (loopedEngine.invalidate ["a", "z", "a"]).1.names = ["a", "b", "c", "z"] ∧
      ∀ y, (loopedEngine.invalidate ["a", "z", "a"]).2.known y =
        if y ∈ ["a", "b", "c", "z"] then none else loopedEngine.known y := by
  have hgraph : loopedEngine.graph = looped.foldl Graph.change .empty := rfl
  have hnames : (loopedEngine.invalidate ["a", "z", "a"]).1.names = ["a", "b", "c", "z"] := by cbv
  obtain ⟨-, -, -, hknown, -⟩ := invalidate_forgets_dependents hgraph ["a", "z", "a"]
  refine ⟨hgraph, hnames, fun y => ?_⟩
  rw [hknown, ← hnames]
  rfl

end Engine
end Formulary
