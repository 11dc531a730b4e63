/-
  Rings: the fields that lie on circles with each other.

  A computation in order gives a field on a circle the fault of its group among the
  fields that are computed.  If these hold all fields on a circle with it, the group is
  the ring of the field, which depends on the references alone.

  * `Graph.ring`: a field, and those that it leads to and that lead to it;
  * `Graph.group_eq_ring`, `Graph.group_eq_self`: when a group is the ring of its fields, and
    when it is a field alone;
  * `Engine.Carried`, `Engine.carried_computeInOrder`: what a computation in order does,
    whether or not formulas may be computed;
  * `Engine.value_eq_told`: reading a field, in the same terms;
  * `Engine.Determined.mem_within_of_ring`: with a stale field its ring is computed;
  * `Engine.Determined.knot_iff`: when a field that is remembered is computed as a circle.
-/
import Formulary.Proofs.Determined
import Formulary.Proofs.Listings

namespace Formulary

open Relation

namespace Graph

variable {g g' : Graph} {within : NameSet} {group : List String} {u v : String}

/-- A field, and the fields that it leads to and that lead to it. -/
def ring (g : Graph) (u : String) : NameSet :=
  NameSet.ofList ((g.below u).names.filter fun v => u ∈ g.below v)

theorem mem_ring : v ∈ g.ring u ↔ ReflTransGen g.Reads u v ∧ ReflTransGen g.Reads v u := by
  rw [ring, NameSet.mem_ofList, List.mem_filter, NameSet.mem_names, decide_eq_true_eq, mem_below,
    mem_below]

theorem self_mem_ring : u ∈ g.ring u := mem_ring.2 ⟨.refl, .refl⟩

/-- A ring depends on the references alone. -/
theorem ring_congr (h : ∀ u v, g.Reads u v ↔ g'.Reads u v) (u : String) : g.ring u = g'.ring u := by
  have hreads : g.Reads = g'.Reads := funext fun u => funext fun v => propext (h u v)
  exact NameSet.ext_mem fun v => by rw [mem_ring, mem_ring, hreads]

/-- The group of a field is its ring, if the whole ring is among the fields. -/
theorem group_eq_ring (hgroup : group ∈ g.components within) (hu : u ∈ group)
    (hwhole : ∀ v ∈ g.ring u, v ∈ within) : group = (g.ring u).names := by
  obtain ⟨_, hnext⟩ := nextGroup_of_mem hgroup
  -- what stands on a way between fields of the ring lies in the ring
  have hway {v w : String} (hvw : ReflTransGen g.Reads v w) (hv : v ∈ g.ring u)
      (hw : w ∈ g.ring u) : ReflTransGen (g.ReadsWithin within) v w := by
    induction hvw using ReflTransGen.head_induction_on with
    | refl => exact .refl
    | head hvx hxw ih =>
      have hx := mem_ring.2 ⟨(mem_ring.1 hv).1.tail hvx, hxw.trans (mem_ring.1 hw).2⟩
      exact .head ⟨hwhole _ hv, hwhole _ hx, hvx⟩ (ih hx)
  refine group_eq_names hgroup fun v => ?_
  rw [hnext.knot u hu]
  refine ⟨fun hv => mem_ring.2 ⟨?_, ?_⟩, fun hv => ?_⟩
  · exact ReflTransGen.mono (fun _ _ h => h.2.2) _ _ hv.1
  · exact ReflTransGen.mono (fun _ _ h => h.2.2) _ _ hv.2
  · obtain ⟨huv, hvu⟩ := mem_ring.1 hv
    exact ⟨hway huv self_mem_ring hv, hway hvu hv self_mem_ring⟩

/-- The group of a field is the field alone, if no other of its ring is among the fields. -/
theorem group_eq_self (hgroup : group ∈ g.components within) (hu : u ∈ group)
    (halone : ∀ v ∈ within, v ∈ g.ring u → v = u) : group = [u] := by
  obtain ⟨_, hnext⟩ := nextGroup_of_mem hgroup
  refine group_eq_names (s := NameSet.ofList [u]) hgroup fun v => ?_
  rw [NameSet.mem_ofList, List.mem_singleton]
  refine ⟨fun hv => ?_, fun hv => hv ▸ hu⟩
  have hknot := (hnext.knot u hu v).1 hv
  refine halone v (hnext.inside v hv) (mem_ring.2 ⟨?_, ?_⟩)
  · exact ReflTransGen.mono (fun _ _ h => h.2.2) _ _ hknot.1
  · exact ReflTransGen.mono (fun _ _ h => h.2.2) _ _ hknot.2

end Graph

namespace Engine

/-! ## Computations in order -/

section

variable {δ : Type} [Owner δ] {engine : Engine δ} {targets : NameSet} {field : String}

/-- The fault of the ring of a field. -/
abbrev ringFault (engine : Engine δ) (field : String) : Result :=
  .error (groupFault (engine.graph.ring field).names)

/-- What is remembered of a field, or why it is not computed. -/
def told (engine : Engine δ) (field : String) : Result :=
  (engine.known field).getD (refusal engine.config field)

/-- What a computation in order does: the fields that are computed and on circles among
themselves have the faults of their groups, and all others what was remembered of them. -/
structure Carried (engine : Engine δ) (targets : NameSet) (p : Progress δ) : Prop where
  frame : ∃ memo formulas, p.engine = { engine with memo, formulas }
  outside : ∀ f, f ∉ engine.withStalePrecedents targets → p.engine.known f = engine.known f
  knotted : ∀ f ∈ engine.withStalePrecedents targets,
    engine.Knot (engine.withStalePrecedents targets) f →
    ∃ group ∈ engine.graph.components (engine.withStalePrecedents targets),
      f ∈ group ∧ p.engine.known f = some (.error (groupFault group))
  kept : ∀ f ∈ engine.withStalePrecedents targets,
    ¬ engine.Knot (engine.withStalePrecedents targets) f → ∀ r, engine.known f = some r →
    p.engine.known f = some r
  computed : ∀ f ∈ engine.withStalePrecedents targets,
    ¬ engine.Knot (engine.withStalePrecedents targets) f → engine.known f = none →
    ∀ r, p.engine.known f = some r →
      ∃ text, Host.formula? engine.host f = some text ∧ r = p.engine.resultOf text
  known : 1 ≤ engine.config.maxReferenceDepth → ∀ f ∈ engine.withStalePrecedents targets,
    (p.engine.known f).isSome
  results : ∀ f ∈ targets, p.results.find? f = some (p.engine.told f)

theorem carried_computeInOrder (hinStep : engine.InStep) (targets : NameSet)
    (htargets : ∀ f ∈ targets, (Host.formula? engine.host f).isSome) :
    engine.Carried targets (engine.computeInOrder targets) := by
  rcases Nat.eq_zero_or_pos engine.config.maxReferenceDepth with hroom | hroom
  · have hp := refused_computeInOrder hroom targets
    obtain ⟨memo, hframe⟩ := hp.frame
    refine ⟨⟨memo, engine.formulas, hframe⟩, fun f hf => hp.outside f fun hd => ?_, fun f hf => ?_,
      fun f _ hk r hr => ?_, fun f _ hk hnone r hr => ?_, fun hpos => ?_, fun f hf => ?_⟩
    · exact hf (NameSet.mem_names.1 hd.1)
    · exact hp.knotted f (NameSet.mem_names.2 hf)
    · exact (hp.outside f fun hd => hk hd.2).trans hr
    · rw [hp.outside f fun hd => hk hd.2, hnone] at hr
      exact absurd hr (by simp)
    · omega
    · rw [hp.results f (NameSet.mem_names.2 (target_mem_within hf)) hf, told, hframe]
  · have hp := scheduled_computeInOrder hinStep hroom targets htargets
    refine ⟨hp.frame, fun f hf => hp.outside f (NameSet.mem_names.not.2 hf),
      fun f hf => hp.knotted f (NameSet.mem_names.2 hf),
      fun f hf => hp.kept f (NameSet.mem_names.2 hf), fun f hf hk hnone r hr => ?_,
      fun _ f hf => hp.isSome_of_done (NameSet.mem_names.2 hf), fun f hf => ?_⟩
    · obtain ⟨text, htext, -, hfind⟩ := hp.computed f (NameSet.mem_names.2 hf) hk hnone
      exact ⟨text, htext, Option.some.inj (hr.symm.trans hfind)⟩
    · have hdone : f ∈ (engine.withStalePrecedents targets).names :=
        NameSet.mem_names.2 (target_mem_within hf)
      obtain ⟨r, hr⟩ := Option.isSome_iff_exists.1 (hp.isSome_of_done hdone)
      rw [hp.results, if_pos ⟨hdone, hf⟩, told, hr]
      rfl

/-- Reading a formula field computes it in order and returns what is told of it then. -/
theorem value_eq_told (hinStep : engine.InStep)
    (hformula : (Host.formula? engine.host field).isSome) :
    engine.value field = ((engine.value field).2.told field, (engine.value field).2) ∧
      (engine.value field).2 = (engine.computeInOrder (.ofList [field])).engine := by
  have hresult := (carried_computeInOrder hinStep _ (formula_of_singleton hformula)).results field
    (by simp)
  obtain ⟨text, htext⟩ := Option.isSome_iff_exists.1 hformula
  have hvalue : engine.value field =
      ((engine.computeInOrder (.ofList [field])).engine.told field,
        (engine.computeInOrder (.ofList [field])).engine) := by
    unfold value
    simp only [htext, hresult]
  rw [hvalue]
  exact ⟨rfl, rfl⟩

/-- To read a formula field changes nothing but what is remembered. -/
theorem frame_value (hinStep : engine.InStep)
    (hformula : (Host.formula? engine.host field).isSome) :
    ∃ memo formulas, (engine.value field).2 = { engine with memo, formulas } := by
  rw [(value_eq_told hinStep hformula).2]
  exact (carried_computeInOrder hinStep _ (formula_of_singleton hformula)).frame

end

/-! ## Determined engines -/

namespace Determined

variable {δ : Type} [Owner δ] {engine : Engine δ} {targets : NameSet} {field other : String}
  (h : engine.Determined)

include h

/-- With a field all that are on a circle with it are remembered. -/
theorem known_around (hfield : (engine.known field).isSome)
    (hother : other ∈ engine.graph.ring field) : (engine.known other).isSome := by
  obtain ⟨hway, hback⟩ := Graph.mem_ring.1 hother
  rcases Nat.eq_zero_or_pos engine.config.maxReferenceDepth with hroom | hroom
  · exact (h.barred hroom).known_around hfield hway hback
  · rcases ReflTransGen.cases_head hback with rfl | ⟨next, hnext, -⟩
    · exact hfield
    · have hformula := h.inStep.formula_of_reads hnext
      exact (h.settled hroom).held.known_below h.inStep hfield hway hformula

/-- A stale field on a circle is computed with its circle. -/
theorem knot_of_circle (hfield : field ∈ engine.withStalePrecedents targets)
    (hstale : engine.known field = none) (hcircle : engine.graph.OnCircle field) :
    engine.Knot (engine.withStalePrecedents targets) field := by
  rcases Nat.eq_zero_or_pos engine.config.maxReferenceDepth with hroom | hroom
  · exact (h.barred hroom).knot_of_circle h.inStep hfield hstale hcircle
  · exact (h.settled hroom).held.knot_of_circle h.inStep hfield hstale hcircle

/-- With a stale field its whole ring is computed. -/
theorem mem_within_of_ring (hfield : field ∈ engine.withStalePrecedents targets)
    (hstale : engine.known field = none) (hother : other ∈ engine.graph.ring field) :
    other ∈ engine.withStalePrecedents targets := by
  obtain ⟨hway, hback⟩ := Graph.mem_ring.1 hother
  clear hother
  induction hway with
  | refl => exact hfield
  | @tail before other hway hreads ih =>
    have hnone : engine.known other = none := by
      rw [← Option.not_isSome_iff_eq_none]
      intro hsome
      simpa [hstale] using
        h.known_around hsome (Graph.mem_ring.2 ⟨hback, hway.tail hreads⟩)
    have hformula : (Host.formula? engine.host other).isSome := by
      rcases ReflTransGen.cases_head hback with rfl | ⟨next, hnext, -⟩
      · obtain ⟨_, hfirst, -⟩ := TransGen.head'_iff.1 (TransGen.tail' hway hreads)
        exact h.inStep.formula_of_reads hfirst
      · exact h.inStep.formula_of_reads hnext
    exact mem_within_of_stale (ih (.head hreads hback)) hreads (isStale_iff.2 ⟨hnone, hformula⟩)

/-- If a field that is remembered is computed, no other of its ring is. -/
theorem eq_of_mem_ring (hfield : (engine.known field).isSome)
    (hother : other ∈ engine.withStalePrecedents (.ofList [field]))
    (hring : other ∈ engine.graph.ring field) : other = field := by
  refine (target_or_stale hother).elim (fun ht => by simpa using ht) fun hs => ?_
  have hsome := h.known_around hfield hring
  rw [(isStale_iff.1 hs).1] at hsome
  exact absurd hsome (by simp)

/-- A field that is remembered is computed as a circle only if it refers to itself. -/
theorem knot_iff (hfield : (engine.known field).isSome) :
    engine.Knot (engine.withStalePrecedents (.ofList [field])) field ↔
      engine.graph.Reads field field := by
  have hin : field ∈ engine.withStalePrecedents (.ofList [field]) := target_mem_within (by simp)
  refine ⟨fun hknot => ?_, fun hself => .single ⟨hin, hin, hself⟩⟩
  obtain ⟨next, hnext, hback⟩ := TransGen.head'_iff.1 hknot
  have hring : next ∈ engine.graph.ring field :=
    Graph.mem_ring.2 ⟨.single hnext.2.2, ReflTransGen.mono (fun _ _ h => h.2.2) _ _ hback⟩
  exact h.eq_of_mem_ring hfield hnext.2.1 hring ▸ hnext.2.2

/-- A computation in order keeps an engine determined. -/
theorem computeInOrder (htargets : ∀ f ∈ targets, (Host.formula? engine.host f).isSome) :
    (engine.computeInOrder targets).engine.Determined := by
  have hfollows := Follows.computeInOrder h.inStep targets
  refine ⟨hfollows.inStep, fun hroom => ?_, fun hroom => ?_⟩
  · rw [hfollows.config] at hroom
    exact (h.settled hroom).scheduled h.inStep
      (scheduled_computeInOrder h.inStep hroom targets htargets)
  · rw [hfollows.config] at hroom
    exact (h.barred hroom).computeInOrder h.inStep hroom targets

end Determined

end Engine

end Formulary
