/-
  What a recomputation pushes comes in the order of references.

  The fields that it computes come group by group, and no group refers to a later one.  The
  fields that it pushes are some of them, in this order: where one comes before another that
  it refers to, the two are in one group.

  * `Graph.pairwise_components`: how far a field of a group refers to fields after it;
  * `Engine.fresh_computeInOrder_sublist`: the fields that were not remembered come in the
    order of the groups;
  * `Engine.recompute_pushes`: what a recomputation returns and pushes, and in what order.
-/
import Formulary.Proofs.Targeted

namespace Formulary

open Relation

/-- In the groups of a set a field refers to one after it only if this leads back to it. -/
theorem Graph.pairwise_components (g : Graph) (within : NameSet) :
    (g.components within).flatten.Pairwise fun x y => g.Reads x y → ReflTransGen g.Reads y x := by
  refine List.pairwise_flatten.2 ⟨fun group hgroup => ?_, ?_⟩
  · obtain ⟨_, hnext⟩ := nextGroup_of_mem hgroup
    refine List.pairwise_of_forall_mem_list fun x hx y hy _ => ?_
    exact ReflTransGen.mono (fun _ _ h => h.2.2) _ _ ((hnext.knot y hy x).1 hx).1
  · exact (ordered_components g within).pairwise.imp fun h x hx y hy hreads =>
      absurd hreads (h x hx y hy).2

namespace Engine

/-! ## The order of what is computed -/

section

variable {δ : Type} [Host δ]

theorem fresh_advance (targets : NameSet) (fault? : Option Fault) (p : Progress δ)
    (field : String) : ∃ added : List String, added.Sublist [field] ∧
      (advance targets fault? p field).fresh = p.fresh ++ added := by
  rw [advance_eq (show p.engine.computeField fault? field = (_, _) from rfl)]
  by_cases h : field ∈ targets ∧ p.engine.known field = none
  · exact ⟨[field], .refl _, if_pos h⟩
  · exact ⟨[], List.nil_sublist _, (if_neg h).trans (List.append_nil _).symm⟩

omit [Host δ] in
/-- Where each step adds some names of its item, in their order, all steps add some names of
the items. -/
theorem fresh_foldl {α : Type} {step : Progress δ → α → Progress δ} {names : α → List String}
    (hstep : ∀ p item, ∃ added : List String, added.Sublist (names item) ∧
      (step p item).fresh = p.fresh ++ added) (items : List α) (p : Progress δ) :
    ∃ added : List String, added.Sublist (items.flatMap names) ∧
      (items.foldl step p).fresh = p.fresh ++ added := by
  induction items generalizing p with
  | nil => exact ⟨[], .refl _, (List.append_nil _).symm⟩
  | cons item rest ih =>
    obtain ⟨first, hfirst, heq⟩ := hstep p item
    obtain ⟨others, hothers, heq'⟩ := ih (step p item)
    refine ⟨first ++ others, hfirst.append hothers, ?_⟩
    rw [List.foldl_cons, heq', heq, List.append_assoc]

/-- The targets that were not remembered come in the order of the groups. -/
theorem fresh_computeInOrder_sublist (engine : Engine δ) (targets : NameSet) :
    (engine.computeInOrder targets).fresh.Sublist
      (engine.graph.components (engine.withStalePrecedents targets)).flatten := by
  have hgroup (p : Progress δ) (group : List String) : ∃ added : List String,
      added.Sublist group ∧ (advanceGroup targets p group).fresh = p.fresh ++ added := by
    have hfold := fresh_foldl (fresh_advance targets
      (if p.engine.graph.isCyclic group then some (groupFault group) else none)) group p
    rwa [List.flatMap_singleton'] at hfold
  obtain ⟨added, hadded, heq⟩ := fresh_foldl hgroup
    (engine.graph.components (engine.withStalePrecedents targets)) ⟨engine, .empty, []⟩
  rw [List.flatMap_id'] at hadded
  exact heq ▸ hadded

end

/-! ## The order of pushes -/

section

variable {δ : Type} [Owner δ]

/-- **Main result.** At any point of any run, with room for a reference, a recomputation
returns one result of each formula field among some fields.  It pushes those of them that were
dirty, each once and with what it shows for its result, and nothing else; and a field is pushed
before one that it refers to only if the two are on a circle of references. -/
theorem recompute_pushes {config : Config} (clock : Instant) (host : δ)
    (hroom : 1 ≤ config.maxReferenceDepth) (run : List Action) (fields : NameSet) :
    let before := (build config clock (⟨host, []⟩ : Traced δ)).performAll run
    let step := before.recompute fields
    let refers := Host.Refers config.maxDepth before.host
    (∀ f, (step.1.find? f).isSome ↔ f ∈ fields ∧ (Host.formula? before.host f).isSome) ∧
      ∃ pushes, step.2.host.pushed = before.host.pushed ++ pushes ∧
        (pushes.map Prod.fst).Nodup ∧
        (∀ f, f ∈ pushes.map Prod.fst ↔ f ∈ fields ∧ (Host.formula? before.host f).isSome ∧
          before.fieldState f = .dirty) ∧
        (∀ f v, (f, v) ∈ pushes → ∃ r, step.1.find? f = some r ∧
          v = Value.shown (Host.kind before.host f) r) ∧
        (pushes.map Prod.fst).Pairwise fun earlier later =>
          refers earlier later → ReflTransGen refers later earlier := by
  intro before step refers
  obtain ⟨hinStep, hconfig⟩ := inStep_run (inStep_build config clock (⟨host, []⟩ : Traced δ)) run
  rw [config_build] at hconfig
  have hroom : 1 ≤ before.config.maxReferenceDepth := by rwa [hconfig]
  obtain ⟨hnodup, hmem, hresults⟩ := fresh_recompute hinStep hroom fields
  have hpushes := map_fst_handed before.host hresults
  refine ⟨keys_recompute hinStep hroom fields, _, pushed_recompute_eq before fields, ?_,
    fun f => ?_, fun f v hv => mem_handed hv, ?_⟩
  · rwa [hpushes]
  · rw [hpushes, hmem, isStale_iff]
    exact and_congr_right fun _ =>
      ⟨fun h => ⟨h.2, (dirty_iff h.2).2 h.1⟩, fun h => ⟨(dirty_iff h.1).1 h.2, h.1⟩⟩
  · have hrefers : before.graph.Reads = refers := by rw [hinStep.reads_eq, hconfig]
    rw [hpushes, ← hrefers]
    exact (before.graph.pairwise_components _).sublist (fresh_computeInOrder_sublist before _)

/-- The fields of the braid, one of another name, and a run that leaves two of them dirty. -/
def braidedNames : NameSet := NameSet.ofList ["q", "b", "x", "nope", "a", "p"]

def braidedPart : Engine (Traced Document) :=
  (build .standard ⟨0, 0⟩ ⟨braided, []⟩).performAll [.value "q"]

set_option maxRecDepth 8192 in
/-- Of the fields that are dirty the first one is pushed before the one that refers to it. -/
theorem recompute_pushes_braided :
    1 ≤ Config.standard.maxReferenceDepth ∧
      ∃ pushes, (braidedPart.recompute braidedNames).2.host.pushed =
        braidedPart.host.pushed ++ pushes ∧ pushes.map Prod.fst = ["a", "b"] ∧
        ∀ f v, (f, v) ∈ pushes → ∃ r, (braidedPart.recompute braidedNames).1.find? f = some r ∧
          v = Value.shown (Host.kind braidedPart.host f) r := by
  obtain ⟨hbefore, hafter⟩ : braidedPart.host.pushed = [] ∧
      (braidedPart.recompute braidedNames).2.host.pushed.map Prod.fst = ["a", "b"] := by cbv
  have hroom : 1 ≤ Config.standard.maxReferenceDepth := by decide
  obtain ⟨-, pushes, hpushed, -, -, hshown, -⟩ :=
    recompute_pushes ⟨0, 0⟩ braided hroom [.value "q"] braidedNames
  change (braidedPart.recompute braidedNames).2.host.pushed = braidedPart.host.pushed ++ pushes
    at hpushed
  refine ⟨hroom, pushes, hpushed, ?_, hshown⟩
  rwa [hpushed, hbefore] at hafter

end

end Engine
end Formulary
