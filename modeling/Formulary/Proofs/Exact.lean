/-
  Engines that list every circle as a whole.

  As long as circles are computed as wholes, a fault of a circle lists the whole ring of the
  field, and every result is determined by what formulas look at, with the lists in faults.

  * `Engine.Exact`: such engines;
  * `Engine.Whole`: all circles among what is computed for some targets are whole;
  * `Engine.Exact.computeInOrder`, `Engine.Exact.recompute`, `Engine.Exact.update`: then the
    operations keep engines exact;
  * `Graph.Solitary`, `Engine.Exact.value`: so does reading, if no field that refers to itself
    is on a circle with another one;
  * `Engine.Exact.known_eq`: engines that look the same to formulas remember the same.
-/
import Formulary.Proofs.Rings

namespace Formulary

open Relation

/-- A field that refers to itself is on no circle with another one. -/
def Graph.Solitary (g : Graph) : Prop := ∀ u, g.Reads u u → ∀ v ∈ g.ring u, v = u

theorem Graph.Solitary.congr {g g' : Graph} (h : g.Solitary)
    (hreads : ∀ u v, g.Reads u v ↔ g'.Reads u v) : g'.Solitary := fun u hself v hv =>
  h u ((hreads u u).2 hself) v (ring_congr hreads u ▸ hv)

namespace Engine

variable {δ : Type} [Owner δ] {engine engine' : Engine δ} {targets : NameSet} {field : String}

/-! ## Whole circles -/

/-- With a field that is computed as one on a circle its whole ring is computed. -/
def Whole (engine : Engine δ) (targets : NameSet) : Prop :=
  ∀ f ∈ engine.withStalePrecedents targets, engine.Knot (engine.withStalePrecedents targets) f →
    ∀ g ∈ engine.graph.ring f, g ∈ engine.withStalePrecedents targets

namespace Determined

variable (h : engine.Determined)

include h

/-- Circles are whole where none of the targets is remembered. -/
theorem whole_of_stale (hstale : ∀ f ∈ targets, engine.known f = none) : engine.Whole targets := by
  intro f hf _ g hg
  refine h.mem_within_of_ring hf ?_ hg
  exact (target_or_stale hf).elim (hstale f) fun hs => (isStale_iff.1 hs).1

/-- Circles are whole where one field is read, if one that refers to itself is a ring of its
own. -/
theorem whole_of_solitary (hsolitary : engine.graph.Solitary) :
    engine.Whole (.ofList [field]) := by
  intro f hf hknot g hg
  cases hknown : engine.known f with
  | none => exact h.mem_within_of_ring hf hknown hg
  | some r =>
    obtain rfl : f = field := by
      refine (target_or_stale hf).elim (fun ht => by simpa using ht) fun hs => ?_
      simp [(isStale_iff.1 hs).1] at hknown
    have hself := (h.knot_iff (by rw [hknown]; rfl)).1 hknot
    exact hsolitary f hself g hg ▸ hf

end Determined

/-! ## Exact engines -/

/-- A determined engine that remembers of a field on a circle the fault of its whole ring, and
of any other field what its formula makes of what is remembered. -/
structure Exact (engine : Engine δ) : Prop where
  determined : engine.Determined
  ring : ∀ f r, engine.known f = some r → engine.graph.OnCircle f → r = engine.ringFault f
  current : ∀ f r text, engine.known f = some r → ¬ engine.graph.OnCircle f →
    Host.formula? engine.host f = some text → r = engine.resultOf text

theorem exact_of_empty (hinStep : engine.InStep) (h : ∀ f, engine.known f = none) :
    engine.Exact where
  determined := determined_of_empty hinStep h
  ring f r hf := by simp [h] at hf
  current f r text hf := by simp [h] at hf

omit [Owner δ] in
theorem resultOf_congr [Host δ] {text : String}
    (hlimit : engine.config.maxDepth = engine'.config.maxDepth)
    (hclock : engine.clock = engine'.clock)
    (h : ∀ g ∈ references engine.config.maxDepth text,
      LooksSame engine.host engine'.host engine.known engine'.known g) :
    engine.resultOf text = engine'.resultOf text := by
  unfold resultOf
  rw [show Session.setting engine'.config engine'.clock =
    Session.setting engine.config engine.clock by rw [Session.setting, ← hlimit, ← hclock]; rfl]
  exact formulaResult_congr h

namespace Exact

section

variable (h : engine.Exact)

include h

theorem inStep : engine.InStep := h.determined.inStep

/-- With a field off the circles all that it reads is remembered. -/
theorem known_of_reads {u v : String} (hu : (engine.known u).isSome)
    (hcircle : ¬ engine.graph.OnCircle u) (hreads : engine.graph.Reads u v)
    (hformula : (Host.formula? engine.host v).isSome) :
    (engine.known v).isSome := by
  rcases Nat.eq_zero_or_pos engine.config.maxReferenceDepth with hroom | hroom
  · obtain ⟨r, hr⟩ := Option.isSome_iff_exists.1 hu
    exact absurd ((h.determined.barred hroom).circle u r hr).1 hcircle
  · exact (h.determined.settled hroom).closed u v hu hreads hformula

end

/-! ### Computations in order -/

section

variable (h : engine.Exact)
  (htargets : ∀ f ∈ targets, (Host.formula? engine.host f).isSome) (hwhole : engine.Whole targets)

include h htargets hwhole

/-- What is remembered stays. -/
theorem known_after {f : String} {r : Result} (hr : engine.known f = some r) :
    (engine.computeInOrder targets).engine.known f = some r := by
  have hp := carried_computeInOrder h.inStep targets htargets
  by_cases hf : f ∈ engine.withStalePrecedents targets
  · by_cases hknot : engine.Knot (engine.withStalePrecedents targets) f
    · obtain ⟨group, hgroup, hmem, hfind⟩ := hp.knotted f hf hknot
      rw [hfind, h.ring f r hr (.of_within hknot),
        Graph.group_eq_ring hgroup hmem (hwhole f hf hknot)]
    · exact hp.kept f hf hknot r hr
  · exact (hp.outside f hf).trans hr

/-- A computation in order keeps an engine exact, if it computes circles as wholes. -/
theorem computeInOrder : (engine.computeInOrder targets).engine.Exact := by
  have hp := carried_computeInOrder h.inStep targets htargets
  have hkept {f : String} {r : Result} := h.known_after htargets hwhole (f := f) (r := r)
  have hnew {f : String} {r : Result} (hr : (engine.computeInOrder targets).engine.known f = some r)
      (hnone : engine.known f = none) : f ∈ engine.withStalePrecedents targets := by
    by_contra hf
    rw [hp.outside f hf, hnone] at hr
    exact absurd hr (by simp)
  obtain ⟨memo, formulas, hframe⟩ := hp.frame
  have hgraph : (engine.computeInOrder targets).engine.graph = engine.graph := by rw [hframe]
  have hhost : (engine.computeInOrder targets).engine.host = engine.host := by rw [hframe]
  refine ⟨h.determined.computeInOrder htargets, fun f r hr hcircle => ?_,
    fun f r text hr hcircle htext => ?_⟩
  · rw [hgraph] at hcircle
    rw [ringFault, hgraph]
    cases hknown : engine.known f with
    | some r' =>
      obtain rfl := Option.some.inj ((hkept hknown).symm.trans hr)
      exact h.ring f r' hknown hcircle
    | none =>
      have hf := hnew hr hknown
      have hknot := h.determined.knot_of_circle hf hknown hcircle
      obtain ⟨group, hgroup, hmem, hfind⟩ := hp.knotted f hf hknot
      obtain rfl := Option.some.inj (hr.symm.trans hfind)
      rw [Graph.group_eq_ring hgroup hmem (hwhole f hf hknot)]
  · rw [hgraph] at hcircle
    rw [hhost] at htext
    cases hknown : engine.known f with
    | some r' =>
      -- the field and all that it reads were remembered before
      obtain rfl := Option.some.inj ((hkept hknown).symm.trans hr)
      rw [h.current f r' text hknown hcircle htext]
      refine resultOf_congr (by rw [hframe]) (by rw [hframe]) fun g hg => ?_
      rw [hhost]
      refine .of_known fun hformula => ?_
      obtain ⟨s, hs⟩ := Option.isSome_iff_exists.1 (h.known_of_reads (by rw [hknown]; rfl) hcircle
        (h.inStep.reads_iff.2 ⟨text, htext, hg⟩) hformula)
      exact hs.trans (hkept hs).symm
    | none =>
      obtain ⟨text', htext', hresult⟩ :=
        hp.computed f (hnew hr hknown) (fun hk => hcircle (.of_within hk)) hknown r hr
      obtain rfl := Option.some.inj (htext.symm.trans htext')
      exact hresult

end

/-! ### Changes -/

/-- Values of formula fields matter to no result. -/
theorem push (h : engine.Exact) {f : String} (hformula : (Host.formula? engine.host f).isSome)
    (v : Value) : Exact { engine with host := Host.push engine.host f v } := by
  have hdeclared := Owner.declared_push engine.host f v
  have hstored (g : String) (hg : Host.formula? engine.host g = none) :
      Host.value? (Host.push engine.host f v) g = Host.value? engine.host g := by
    rw [Owner.value?_push engine.host f v g hformula, if_neg]
    rintro rfl
    simp [hg] at hformula
  generalize Host.push engine.host f v = host at hdeclared hstored ⊢
  have hinStep : InStep { engine with host } :=
    ⟨h.inStep.mirrored, fun g => (hdeclared g).formula ▸ h.inStep.precedents g, h.inStep.formulas⟩
  refine ⟨⟨hinStep, fun hroom => ?_, fun hroom => ?_⟩, h.ring, fun g r text hr hcircle htext => ?_⟩
  · exact ((h.determined.sound hroom).push hdeclared hstored).settled
  · exact ⟨(h.determined.barred hroom).circle, (h.determined.barred hroom).whole⟩
  · rw [h.current g r text hr hcircle ((hdeclared g).formula ▸ htext)]
    exact resultOf_congr rfl rfl fun other _ =>
      ⟨(hdeclared other).symm, fun hplain => (hstored other hplain).symm, fun _ => rfl⟩

/-- A recomputation keeps an engine exact, if it computes circles as wholes. -/
theorem recompute (h : engine.Exact) {fields : NameSet}
    (hwhole : engine.Whole (engine.targetsOf fields)) : (engine.recompute fields).2.Exact := by
  have htargets : ∀ f ∈ engine.targetsOf fields, (Host.formula? engine.host f).isSome :=
    fun f hf => (mem_targetsOf.1 hf).2
  have hhost := (frame_computeInOrder engine (engine.targetsOf fields)).1
  refine (recompute_induct (motive := fun e : Engine δ => e.Exact ∧
      ∀ f, Host.formula? e.host f = Host.formula? engine.host f) engine fields
    ⟨h.computeInOrder htargets hwhole, fun f => by rw [hhost]⟩ fun e f v hf he => ?_).1
  refine ⟨he.1.push (he.2 f ▸ htargets f hf) v, fun g => ?_⟩
  exact (Owner.declared_push e.host f v g).formula.trans (he.2 g)

/-- To compute everything keeps an engine exact. -/
theorem evaluateAll (h : engine.Exact) : engine.evaluateAll.2.Exact := by
  have hclear : Exact { engine with memo := engine.memo.clear } :=
    exact_of_empty (h.inStep.with_memo _) fun _ => rfl
  exact hclear.recompute (hclear.determined.whole_of_stale fun _ _ => rfl)

/-- After a write all that depends on the field is forgotten, and the rest is exact. -/
theorem written (h : engine.Exact) {v : Value} {start : Engine δ}
    (hwritten : engine.Written field v start) : start.Exact := by
  have hstart := h.determined.written hwritten
  have hforgotten := hwritten.forgotten h.inStep
  have hold {f : String} {r : Result} (hr : start.known f = some r) : engine.known f = some r :=
    (hforgotten.known_eq (by rw [hr]; rfl)).symm.trans hr
  refine ⟨hstart, fun f r hr hcircle => ?_, fun f r text hr hcircle htext => ?_⟩
  · rw [ringFault, hwritten.graph]
    exact h.ring f r (hold hr) (hwritten.graph ▸ hcircle)
  · rw [hwritten.graph] at hcircle
    rw [(hwritten.declared f).formula] at htext
    rw [h.current f r text (hold hr) hcircle htext]
    refine resultOf_congr hforgotten.limit hforgotten.clock fun g hg => ?_
    have hreads : start.graph.Reads f g :=
      hwritten.graph ▸ h.inStep.reads_iff.2 ⟨text, htext, hg⟩
    have hsome : (start.known f).isSome := by rw [hr]; rfl
    have hunchanged : g ∉ [field] :=
      hforgotten.not_changed hstart.inStep hsome (.single hreads)
    exact ⟨hforgotten.declared g hunchanged, hforgotten.stored g hunchanged,
      fun _ => (hforgotten.known_of_reads hstart.inStep hsome hreads).symm⟩

/-- A write, whatever the policy is, keeps an engine exact. -/
theorem update (h : engine.Exact) (field : String) (v : Value) :
    (engine.update field v).2.Exact := by
  obtain ⟨start, hwritten, hupdate⟩ := update_eq engine field v
  have hstart := h.written hwritten
  rw [hupdate]
  cases engine.config.policy with
  | whenRead => exact hstart
  | eager =>
    refine hstart.recompute (hstart.determined.whole_of_stale fun f hf => ?_)
    rw [hwritten.known, if_pos (mem_targetsOf.1 hf).1]

/-- To read a field keeps an engine exact, if one that refers to itself is a ring of its own. -/
theorem value (h : engine.Exact) (hsolitary : engine.graph.Solitary) (field : String) :
    (engine.value field).2.Exact := by
  cases hformula : Host.formula? engine.host field with
  | none =>
    rw [value_of_none hformula]
    exact h
  | some text =>
    have hsome : (Host.formula? engine.host field).isSome := by rw [hformula]; rfl
    rw [(value_eq_told h.inStep hsome).2]
    exact h.computeInOrder (formula_of_singleton hsome) (h.determined.whole_of_solitary hsolitary)

/-! ### One result of every field -/

/-- Engines that look the same to formulas at the same time remember the same of a field, if
they remember anything: off the circles by induction along the references. -/
theorem known_eq (h : engine.Exact) (h' : engine'.Exact) (hview : engine.SameView engine')
    (hclock : engine.clock = engine'.clock) (hformula : (Host.formula? engine.host field).isSome)
    {r r' : Result} (hr : engine.known field = some r) (hr' : engine'.known field = some r') :
    r = r' := by
  have hreads := fun u v => hview.reads_iff h.inStep h'.inStep (u := u) (v := v)
  induction field using engine.graph.induction_off_circles generalizing r r' with
  | circle f hcircle =>
    rw [h.ring f r hr hcircle, h'.ring f r' hr' (hview.onCircle h.inStep h'.inStep hcircle),
      ringFault, ringFault, Graph.ring_congr hreads]
  | step f hcircle ih =>
    obtain ⟨text, htext⟩ := Option.isSome_iff_exists.1 hformula
    have hcircle' : ¬ engine'.graph.OnCircle f := fun hc => hcircle <|
      TransGen.mono (fun u v hr => (hreads u v).2 hr) _ _ hc
    rw [h.current f r text hr hcircle htext,
      h'.current f r' text hr' hcircle' ((hview.declared f).formula ▸ htext)]
    refine resultOf_congr hview.limit hclock fun g hg => ?_
    refine ⟨hview.declared g, hview.stored g, fun hgformula => ?_⟩
    have hg : engine.graph.Reads f g := h.inStep.reads_iff.2 ⟨text, htext, hg⟩
    obtain ⟨s, hs⟩ := Option.isSome_iff_exists.1
      (h.known_of_reads (by rw [hr]; rfl) hcircle hg hgformula)
    obtain ⟨s', hs'⟩ := Option.isSome_iff_exists.1 (h'.known_of_reads (by rw [hr']; rfl) hcircle'
      ((hreads f g).1 hg) ((hview.declared g).formula ▸ hgformula))
    rw [hs, hs', ih g hg hgformula hs hs']

end Exact

end Engine
end Formulary
