/-
  What a host shows while an engine recomputes at once.

  * `Engine.Shown`: every formula field is remembered, and the host stores what the field
    shows for its result;
  * `Engine.shown_recompute`: a recomputation of all that is stale comes to this;
  * `Engine.shown_perform`: under the eager policy every action but a bare
    invalidation keeps it;
  * `Engine.stored_eq_shown_rebuilt`: so the host stores what an engine newly built over
    it would have it show.
-/
import Formulary.Proofs.Rebuilt
import Mathlib

namespace Formulary

/-- An action does more than to forget results. -/
def Action.Refreshes : Action → Prop
  | invalidate _ => False
  | _ => True

namespace Engine

variable {δ : Type} [Owner δ] {engine engine' : Engine δ}

/-- The result of a field is remembered, and the host stores what the field shows for
it. -/
def ShownAt (engine : Engine δ) (f : String) : Prop :=
  ∃ r, engine.known f = some r ∧
    Host.value? engine.host f = some (Value.shown (Host.kind engine.host f) r)

/-- A sound engine that has the host show the results of all formula fields. -/
structure Shown (engine : Engine δ) : Prop where
  sound : engine.Sound
  shown : ∀ f, (Host.formula? engine.host f).isSome → engine.ShownAt f

/-- A recomputation has the host show the results of its fields that were stale, and of
all that it showed before. -/
theorem shownAt_recompute (hinStep : engine.InStep) (h : engine.Held)
    (hroom : 1 ≤ engine.config.maxReferenceDepth) {fields : NameSet} {f : String}
    (hformula : (Host.formula? engine.host f).isSome)
    (hf : f ∈ fields ∧ engine.known f = none ∨ engine.ShownAt f) :
    (engine.recompute fields).2.ShownAt f := by
  obtain ⟨p, host, heq, -, hp, hpushed⟩ := recompute_eq hinStep hroom fields
  rw [heq]
  have hkind : Host.kind host f = Host.kind engine.host f := (hpushed.declared f).kind
  rcases hf with ⟨hf, hnone⟩ | ⟨r, hr, hvalue⟩
  · have htarget := mem_targetsOf.2 ⟨hf, hformula⟩
    have hdone : f ∈ engine.withStalePrecedents _ := target_mem_within htarget
    obtain ⟨r, hr⟩ := Option.isSome_iff_exists.1 (hp.isSome_of_done hdone)
    refine ⟨r, hr, ?_⟩
    rw [show Host.kind _ f = _ from hkind]
    refine hpushed.shown f ((hp.fresh f).2 ⟨hdone, htarget, hnone⟩) r ?_
    rw [hp.results, if_pos ⟨hdone, htarget⟩, hr]
  · obtain ⟨r', hr', halike⟩ := h.alike_after hp hr
    refine ⟨r', hr', ?_⟩
    rw [show Host.kind _ f = _ from hkind, ← halike.shown_eq, ← hvalue]
    refine hpushed.elsewhere f fun hfresh => ?_
    exact absurd (hr.symm.trans ((hp.fresh f).1 hfresh).2.2) (by simp)

/-- A recomputation of fields among which are all that are stale has the host show
every result. -/
theorem shown_recompute (h : engine.Sound) (hroom : 1 ≤ engine.config.maxReferenceDepth)
    {fields : NameSet}
    (hfields : ∀ f, (Host.formula? engine.host f).isSome →
      f ∈ fields ∧ engine.known f = none ∨ engine.ShownAt f) :
    (engine.recompute fields).2.Shown := by
  refine ⟨(h.recompute hroom fields).1, fun f hformula => ?_⟩
  rw [(Follows.recompute h.inStep fields).formula] at hformula
  exact shownAt_recompute h.inStep h.settled.held hroom hformula (hfields f hformula)

/-- To compute everything has the host show everything. -/
theorem shown_evaluateAll (hinStep : engine.InStep)
    (hroom : 1 ≤ engine.config.maxReferenceDepth) : engine.evaluateAll.2.Shown := by
  exact shown_recompute hinStep.sound_clear hroom fun f hf => .inl ⟨hinStep.mem_fields.2 hf, rfl⟩

namespace Shown

/-- The eager reaction to a change of a field: what depends on the field is computed
anew, and all else stays as it was shown. -/
theorem react {field : String} (h : engine.Shown) (hroom : 1 ≤ engine.config.maxReferenceDepth)
    (heager : engine.config.policy = .eager) (hchanged : Changed [field] engine engine') :
    (engine'.react field).2.Shown := by
  have hsound := h.sound.invalidate hchanged
  rw [react_eq, hchanged.config, heager]
  obtain ⟨memo, heq, hmemo⟩ := invalidate_eq engine' [field]
  rw [heq] at hsound ⊢
  refine shown_recompute hsound (hchanged.config ▸ hroom) fun f hformula => ?_
  by_cases hf : f ∈ engine'.graph.affected [field]
  · exact .inl ⟨hf, (hmemo f).trans (if_pos hf)⟩
  · right
    have hne : f ∉ [field] := fun hmem =>
      hf ((Graph.mem_affected_iff hchanged.inStep.mirrored).2 ⟨f, hmem, .refl⟩)
    have hdeclared := hchanged.declared f hne
    obtain ⟨r, hr, hvalue⟩ := h.shown f (hdeclared.formula ▸ hformula)
    refine ⟨r, ?_, ?_⟩
    · refine (hmemo f).trans ((if_neg hf).trans ?_)
      exact (congrArg (·.results.find? f) hchanged.memo).trans hr
    · exact (hchanged.stored f hne).symm.trans (hdeclared.kind ▸ hvalue)

/-- To read a field of which everything is remembered changes no value that is shown. -/
theorem value (h : engine.Shown) (hroom : 1 ≤ engine.config.maxReferenceDepth) (field : String) :
    (engine.value field).2.Shown := by
  have hsound := (h.sound.value hroom field).1
  cases hformula : Host.formula? engine.host field with
  | none => rwa [value_of_none hformula]
  | some text =>
    obtain ⟨p, r, heq, -, -, hp⟩ := value_eq h.sound.inStep hroom
      (Option.isSome_iff_exists.2 ⟨_, hformula⟩)
    rw [heq] at hsound ⊢
    refine ⟨hsound, fun f hf => ?_⟩
    rw [hp.host_eq] at hf
    obtain ⟨r, hr, hvalue⟩ := h.shown f hf
    obtain ⟨r', hr', halike⟩ := h.sound.settled.held.alike_after hp hr
    exact ⟨r', hr', by rw [hp.host_eq, ← halike.shown_eq]; exact hvalue⟩

/-- An expression finds every field remembered, so it leaves nothing behind. -/
theorem evaluate (h : engine.Shown) (text : String) : (engine.evaluate text).2.Shown := by
  have hinStep := (Follows.evaluate h.sound.inStep text).inStep
  obtain ⟨s, heq, hgrown⟩ := evaluate_eq engine text
  rw [heq] at hinStep ⊢
  have hknown : (engine.resume s).known = engine.known := by
    funext f
    cases hf : engine.known f with
    | some r => exact hgrown.kept f r hf
    | none =>
      refine Option.not_isSome_iff_eq_none.1 fun hsome => ?_
      obtain ⟨r, hr, -⟩ := h.shown f (hgrown.added f hf hsome)
      exact absurd (hf.symm.trans hr) (by simp)
  refine ⟨⟨hinStep, ?_, ?_, ?_⟩, fun f hf => ?_⟩
  · rw [hknown]
    exact h.sound.settled.closed
  · rw [hknown]
    exact h.sound.settled.circle
  · unfold resultOf
    rw [hknown]
    exact h.sound.settled.current
  · obtain ⟨r, hr, hvalue⟩ := h.shown f hf
    exact ⟨r, (congrFun hknown f).trans hr, hvalue⟩

end Shown

/-! ## Runs -/

/-- Under the eager policy every action that does more than to forget has the host
show all results. -/
theorem shown_perform {action : Action} (h : engine.Shown)
    (hroom : 1 ≤ engine.config.maxReferenceDepth) (heager : engine.config.policy = .eager)
    (htimeless : Timeless engine.config.maxDepth engine.host) (haction : action.Refreshes) :
    (engine.perform action).2.Shown := by
  cases action with
  | update field v => exact h.react hroom heager (inStep_write h.sound.inStep field v)
  | invalidate fields => exact haction.elim
  | recompute fields => exact shown_recompute h.sound hroom fun f hf => .inr (h.shown f hf)
  | value field => exact h.value hroom field
  | evaluateAll => exact shown_evaluateAll h.sound.inStep hroom
  | evaluate text => exact h.evaluate text
  | edit e =>
    have hshown := h.react hroom heager (changed_edited h.sound.inStep e)
    rwa [← report_eq] at hshown
  | tick clock =>
    exact ⟨⟨h.sound.inStep.with_clock clock, h.sound.settled.tick htimeless clock⟩, h.shown⟩

theorem shown_run (h : engine.Shown) (hroom : 1 ≤ engine.config.maxReferenceDepth)
    (heager : engine.config.policy = .eager)
    (htimeless : Timeless engine.config.maxDepth engine.host) {actions : List Action}
    (hactions : ∀ a ∈ actions, a.Refreshes ∧ a.Timeless engine.config.maxDepth) :
    (engine.performAll actions).Shown ∧
      Timeless engine.config.maxDepth (engine.performAll actions).host := by
  induction actions generalizing engine with
  | nil => exact ⟨h, htimeless⟩
  | cons action rest ih =>
    obtain ⟨hrefreshes, hformula⟩ := hactions action List.mem_cons_self
    obtain ⟨-, hconfig, -⟩ := inStep_perform h.sound.inStep action
    have hshown := shown_perform h hroom heager htimeless hrefreshes
    have htimeless' := timeless_perform h.sound.inStep htimeless hformula
    rw [← hconfig] at htimeless' hroom heager hactions ⊢
    exact ih hshown hroom heager htimeless' fun a ha => hactions a (List.mem_cons_of_mem _ ha)

theorem shown_reported {config : Config} {host : δ} (clock : Instant)
    (hroom : 1 ≤ config.maxReferenceDepth) (heager : config.policy = .eager)
    (htimeless : Timeless config.maxDepth host) {actions : List Action}
    (hactions : ∀ a ∈ actions, a.Refreshes ∧ a.Timeless config.maxDepth) :
    ((build config clock host).performAll (.evaluateAll :: actions)).Shown ∧
      ((build config clock host).performAll (.evaluateAll :: actions)).config = config ∧
      Timeless config.maxDepth
        ((build config clock host).performAll (.evaluateAll :: actions)).host := by
  have hbuild := inStep_build config clock host
  have hconfig := config_build config clock host
  have hhost := host_build config clock host
  generalize build config clock host = engine at hbuild hconfig hhost ⊢
  subst hconfig hhost
  have hfirst := (inStep_perform hbuild .evaluateAll).2.1
  have htimeless' := timeless_perform hbuild htimeless
    (show Action.Timeless _ .evaluateAll from trivial)
  have hshown : (engine.perform .evaluateAll).2.Shown := shown_evaluateAll hbuild hroom
  have hrun := (inStep_run hbuild (.evaluateAll :: actions)).2
  rw [← hfirst] at hroom heager htimeless' hactions
  obtain ⟨hshown', htimeless''⟩ := shown_run hshown hroom heager htimeless' hactions
  rw [hfirst] at htimeless''
  exact ⟨hshown', hrun, htimeless''⟩

/-- **Main result.** Under the eager policy, after everything was computed once and
after every later action other than a bare invalidation, every formula field is
clean, and the host stores what the field shows for the result that an engine newly
built over the host has for it. -/
theorem stored_eq_shown_rebuilt {config config' : Config} {clock clock' : Instant} {host : δ}
    (hroom : 1 ≤ config.maxReferenceDepth) (hroom' : 1 ≤ config'.maxReferenceDepth)
    (hlimit : config'.maxDepth = config.maxDepth) (heager : config.policy = .eager)
    (htimeless : Timeless config.maxDepth host) {actions : List Action}
    (hactions : ∀ a ∈ actions, a.Refreshes ∧ a.Timeless config.maxDepth) {f : String} :
    let after := (build config clock host).performAll (.evaluateAll :: actions)
    (Host.formula? after.host f).isSome → after.fieldState f = .clean ∧
      ∃ r, (build config' clock' after.host).evaluateAll.1.find? f = some r ∧
        Host.value? after.host f = some (Value.shown (Host.kind after.host f) r) := by
  obtain ⟨hshown, hconfig, htimeless'⟩ := shown_reported clock hroom heager htimeless hactions
  generalize (build config clock host).performAll (.evaluateAll :: actions) = engine
    at hshown hconfig htimeless' ⊢
  subst hconfig
  intro after hformula
  obtain ⟨r, hr, hvalue⟩ := hshown.shown f hformula
  obtain ⟨r', hr', halike⟩ := hshown.sound.alike_rebuilt htimeless' hlimit hroom' clock' hformula hr
  refine ⟨?_, r', hr', hvalue.trans (congrArg some (halike.shown_eq _))⟩
  obtain ⟨text, htext⟩ := Option.isSome_iff_exists.1 hformula
  unfold fieldState Memo.state
  rw [htext]
  exact if_pos (NameMap.contains_eq_true.2 ⟨r, hr⟩)

set_option maxRecDepth 8192 in
/-- A write and an edit that closes a circle. -/
theorem stored_eq_shown_rebuilt_pair :
    let run := [.evaluateAll, .update "c" (.boolean true), closing]
    let after := (build .standard ⟨0, 0⟩ pair).performAll run
    after.fieldState "a" = .clean ∧
      ∃ r, (build ⟨64, 1, .whenRead⟩ ⟨0, 0⟩ after.host).evaluateAll.1.find? "a" = some r ∧
        Host.value? after.host "a" = some (Value.shown (Host.kind after.host "a") r) := by
  have hactions : ∀ a ∈ [.update "c" (.boolean true), closing],
      a.Refreshes ∧ a.Timeless 64 := by
    intro a ha
    simp only [List.mem_cons, List.not_mem_nil, or_false] at ha
    rcases ha with rfl | rfl
    · exact ⟨trivial, trivial⟩
    · exact ⟨trivial, timeless_closing⟩
  have hstored := @stored_eq_shown_rebuilt Document _ .standard ⟨64, 1, .whenRead⟩ ⟨0, 0⟩ ⟨0, 0⟩
    pair (by decide) (by decide) rfl rfl timeless_pair [.update "c" (.boolean true), closing]
    hactions "a"
  have hformula : (Host.formula? ((build .standard ⟨0, 0⟩ pair).performAll
      [.evaluateAll, .update "c" (.boolean true), closing]).host "a").isSome := by cbv
  exact hstored hformula

end Engine
end Formulary
