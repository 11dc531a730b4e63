/-
  Fields that are computed aside.

  A recomputation also computes the stale fields that its fields refer to, and they are
  clean afterwards.  But it hands to the host only the values of the fields that it was
  asked for, and one that is clean is not handed over later either.

  * `Engine.CleanShown`: the host stores what every clean formula field shows;
  * `Engine.AsideShown`: of the fields that an action computes aside, the host stores
    this already;
  * `Engine.cleanShown_perform_iff`: one action;
  * `Engine.clean_shown_iff`: a run of writes and recomputations;
  * `Engine.clean_unshown_after_update`: a field that is clean behind the host's back.
-/
import Formulary.Proofs.Display

namespace Formulary

/-- An action that has fields recomputed, or the passing of time. -/
def Action.Recomputes : Action → Prop
  | update _ _ | recompute _ | tick _ => True
  | _ => False

namespace Engine

section

variable {δ : Type} [Host δ]

/-- The host stores what every clean formula field shows. -/
def CleanShown (engine : Engine δ) : Prop :=
  ∀ f, (Host.formula? engine.host f).isSome → engine.fieldState f = .clean →
    ∃ r, engine.known f = some r ∧
      Host.value? engine.host f = some (Value.shown (Host.kind engine.host f) r)

/-- The fields that an action has recomputed for the host. -/
def requested (engine : Engine δ) : Action → NameSet
  | .update field _ => engine.graph.affected [field]
  | .recompute fields => fields
  | _ => .empty

theorem clean_iff {engine : Engine δ} {f : String}
    (hformula : (Host.formula? engine.host f).isSome) :
    engine.fieldState f = .clean ↔ (engine.known f).isSome := by
  rw [fieldState_eq, isStale, state_beq_dirty, hformula, Bool.and_true]
  change (if (engine.known f).isNone = true then _ else _) = _ ↔ _
  cases engine.known f <;> simp

theorem dirty_iff {engine : Engine δ} {f : String}
    (hformula : (Host.formula? engine.host f).isSome) :
    engine.fieldState f = .dirty ↔ engine.known f = none := by
  rw [fieldState_eq, isStale, state_beq_dirty, hformula, Bool.and_true]
  change (if (engine.known f).isNone = true then _ else _) = _ ↔ _
  cases engine.known f <;> simp

end

variable {δ : Type} [Owner δ] {engine engine' : Engine δ} {f : String}

/-- Where an action makes a stale field clean without being asked to, the host stores
what the field shows already. -/
def AsideShown (engine : Engine δ) (action : Action) : Prop :=
  ∀ f, (Host.formula? engine.host f).isSome → f ∉ engine.requested action →
    engine.fieldState f = .dirty → (engine.perform action).2.fieldState f = .clean →
    ∃ r, (engine.perform action).2.known f = some r ∧
      Host.value? engine.host f = some (Value.shown (Host.kind engine.host f) r)

/-! ## One recomputation -/

/-- A recomputation leaves what the host stores for the other fields as it is. -/
theorem value?_recompute (hinStep : engine.InStep) (hroom : 1 ≤ engine.config.maxReferenceDepth)
    {fields : NameSet} (hf : f ∉ fields) :
    Host.value? (engine.recompute fields).2.host f = Host.value? engine.host f := by
  obtain ⟨p, host, heq, -, hp, hpushed⟩ := recompute_eq hinStep hroom fields
  rw [heq]
  exact hpushed.elsewhere f fun hfresh => hf (mem_targetsOf.1 ((hp.fresh f).1 hfresh).2.1).1

theorem held_recompute (hinStep : engine.InStep) (hheld : engine.Held)
    (hroom : 1 ≤ engine.config.maxReferenceDepth) (fields : NameSet) :
    (engine.recompute fields).2.Held := by
  have hformula := (Follows.recompute hinStep fields).formula
  obtain ⟨p, host, heq, -, hp, -⟩ := recompute_eq hinStep hroom fields
  rw [heq] at hformula ⊢
  refine (hheld.scheduled hinStep hp).of_formulas fun f => ?_
  rw [hp.host_eq]
  exact hformula f

/-- The results of two engines are alike, apart from the fields that are recomputed. -/
structure AgreeBeside (fields : NameSet) (engine engine' : Engine δ) : Prop where
  formula : ∀ f, Host.formula? engine'.host f = Host.formula? engine.host f
  kind : ∀ f, Host.kind engine'.host f = Host.kind engine.host f
  value : ∀ f, f ∉ fields → Host.value? engine'.host f = Host.value? engine.host f
  known : ∀ f, f ∉ fields → engine'.known f = engine.known f

/-- After a recomputation the host stores what every clean field shows exactly if it did
so already for the fields that were computed aside. -/
theorem cleanShown_recompute_iff {fields : NameSet} (hagree : AgreeBeside fields engine engine')
    (hinStep : engine'.InStep) (hheld : engine'.Held)
    (hroom : 1 ≤ engine'.config.maxReferenceDepth) (hclean : engine'.CleanShown) :
    (engine'.recompute fields).2.CleanShown ↔
      ∀ f, (Host.formula? engine.host f).isSome → f ∉ fields → engine.fieldState f = .dirty →
        (engine'.recompute fields).2.fieldState f = .clean →
        ∃ r, (engine'.recompute fields).2.known f = some r ∧
          Host.value? engine.host f = some (Value.shown (Host.kind engine.host f) r) := by
  have hdeclared (f : String) := ((recompute_view engine' fields).declared f).symm
  have hafter (f : String) : Host.formula? (engine'.recompute fields).2.host f =
      Host.formula? engine.host f := (hdeclared f).formula.trans (hagree.formula f)
  have hkind (f : String) : Host.kind (engine'.recompute fields).2.host f =
      Host.kind engine.host f := (hdeclared f).kind.trans (hagree.kind f)
  have hvalue (f : String) (hf : f ∉ fields) :
      Host.value? (engine'.recompute fields).2.host f = Host.value? engine.host f :=
    (value?_recompute hinStep hroom hf).trans (hagree.value f hf)
  constructor
  · intro h f hformula hf _ hstate
    obtain ⟨r, hr, hshown⟩ := h f (hafter f ▸ hformula) hstate
    exact ⟨r, hr, by rw [← hvalue f hf, ← hkind f, hshown]⟩
  · intro h f hformula hstate
    rw [hafter] at hformula
    have hformula' : (Host.formula? engine'.host f).isSome := hagree.formula f ▸ hformula
    cases hknown : engine'.known f with
    | some r =>
      -- a field that was clean is shown, and stays so
      have hshown := hclean f hformula' ((clean_iff hformula').2 (by rw [hknown]; rfl))
      exact shownAt_recompute hinStep hheld hroom hformula' (.inr hshown)
    | none =>
      by_cases hf : f ∈ fields
      · exact shownAt_recompute hinStep hheld hroom hformula' (.inl ⟨hf, hknown⟩)
      · have hdirty := (dirty_iff hformula).2 ((hagree.known f hf).symm.trans hknown)
        obtain ⟨r, hr, hshown⟩ := h f hformula hf hdirty hstate
        exact ⟨r, hr, by rw [hvalue f hf, hkind f, hshown]⟩

/-! ## One action -/

/-- An action that recomputes, where the host stores what all clean fields show: it does so
afterwards exactly if it did for the fields that are computed aside. -/
theorem cleanShown_perform_iff {action : Action} (hinStep : engine.InStep) (hheld : engine.Held)
    (hroom : 1 ≤ engine.config.maxReferenceDepth) (heager : engine.config.policy = .eager)
    (haction : action.Recomputes) (hclean : engine.CleanShown) :
    (engine.perform action).2.Held ∧
      ((engine.perform action).2.CleanShown ↔ engine.AsideShown action) := by
  cases action with
  | update field v =>
    obtain ⟨start, h, hupdate⟩ := update_eq engine field v
    simp only [heager] at hupdate
    have hperform : (engine.perform (.update field v)).2 =
        (start.recompute (engine.graph.affected [field])).2 := by
      show (engine.update field v).2 = _
      rw [hupdate]
    have hagree : AgreeBeside (engine.graph.affected [field]) engine start := by
      refine ⟨fun f => (h.declared f).formula, fun f => (h.declared f).kind, fun f hf => ?_,
        fun f hf => (h.known f).trans (if_neg hf)⟩
      refine h.value? fun heq => hf ?_
      exact (Graph.mem_affected_iff hinStep.mirrored).2 ⟨f, List.mem_singleton.2 heq, .refl⟩
    have hstartClean : start.CleanShown := by
      intro f hformula hstate
      have hf : f ∉ engine.graph.affected [field] := by
        intro hf
        have hsome := (clean_iff hformula).1 hstate
        rw [h.known, if_pos hf] at hsome
        exact absurd hsome (by simp)
      rw [hagree.formula] at hformula
      obtain ⟨r, hr, hshown⟩ := hclean f hformula ((clean_iff hformula).2 (by
        rw [← hagree.known f hf]
        exact (clean_iff (hagree.formula f ▸ hformula)).1 hstate))
      exact ⟨r, (hagree.known f hf).trans hr, by rw [hagree.value f hf, hagree.kind f, hshown]⟩
    have hstart := h.inStep hinStep
    have hstartHeld := hheld.forget hinStep hstart (h.forgotten hinStep)
    have hstartRoom : 1 ≤ start.config.maxReferenceDepth := h.config ▸ hroom
    unfold AsideShown
    rw [hperform]
    exact ⟨held_recompute hstart hstartHeld hstartRoom _,
      cleanShown_recompute_iff hagree hstart hstartHeld hstartRoom hstartClean⟩
  | recompute fields =>
    have hagree : AgreeBeside fields engine engine :=
      ⟨fun _ => rfl, fun _ => rfl, fun _ _ => rfl, fun _ _ => rfl⟩
    exact ⟨held_recompute hinStep hheld hroom fields,
      cleanShown_recompute_iff hagree hinStep hheld hroom hclean⟩
  | tick clock =>
    refine ⟨⟨hheld.closed, hheld.circle⟩, fun _ f _ _ hdirty hstate => ?_, fun _ => hclean⟩
    have hstate : engine.fieldState f = .clean := hstate
    exact FieldState.noConfusion (hstate.symm.trans hdirty)
  | _ => exact haction.elim

/-! ## Runs -/

/-- Whether a run leaves a clean field unshown depends on what its actions compute aside: by
induction on the run, from an engine whose host stores what all clean fields show. -/
theorem cleanShown_performAll_iff {run : List Action} (hinStep : engine.InStep)
    (hheld : engine.Held) (hroom : 1 ≤ engine.config.maxReferenceDepth)
    (heager : engine.config.policy = .eager) (hclean : engine.CleanShown)
    (hrun : ∀ action ∈ run, action.Recomputes) :
    (∀ before, before <+: run → (engine.performAll before).CleanShown) ↔
      ∀ before action, before ++ [action] <+: run →
        (engine.performAll before).AsideShown action := by
  induction run generalizing engine with
  | nil =>
    refine ⟨fun _ before action h => by simp at h, fun _ before h => ?_⟩
    rw [List.prefix_nil.1 h]
    exact hclean
  | cons action rest ih =>
    obtain ⟨haction, hrest⟩ := List.forall_mem_cons.1 hrun
    obtain ⟨hheld', hiff⟩ := cleanShown_perform_iff hinStep hheld hroom heager haction hclean
    obtain ⟨hinStep', hconfig', -⟩ := inStep_perform hinStep action
    rw [← hconfig'] at hroom heager
    have hih := fun hclean' => ih hinStep' hheld' hroom heager hclean' hrest
    constructor
    · intro h before a hbefore
      have hlater : ∀ later, later <+: rest →
          ((engine.perform action).2.performAll later).CleanShown :=
        fun later hlater => h (action :: later) (List.cons_prefix_cons.2 ⟨rfl, hlater⟩)
      have hclean' := hlater [] List.nil_prefix
      cases before with
      | nil =>
        obtain rfl : a = action := by simpa using hbefore
        exact hiff.1 hclean'
      | cons first later =>
        obtain ⟨rfl, hprefix⟩ := List.cons_prefix_cons.1 hbefore
        exact (hih hclean').1 hlater later a hprefix
    · intro h before hbefore
      have hclean' := hiff.2 (h [] action (by simp))
      rcases List.prefix_cons_iff.1 hbefore with rfl | ⟨later, rfl, hlater⟩
      · exact hclean
      · refine (hih hclean').2 (fun later a hprefix => ?_) later hlater
        exact h (action :: later) a (List.cons_prefix_cons.2 ⟨rfl, hprefix⟩)

/-- **Main result.** Under the eager policy, in a run of writes and recomputations of a newly
built engine the host stores what every clean formula field shows, at all times, exactly if
each action that makes a stale field clean without being asked to happens upon a host that
stores what the field shows already. -/
theorem clean_shown_iff {config : Config} (clock : Instant) (host : δ)
    (hroom : 1 ≤ config.maxReferenceDepth) (heager : config.policy = .eager)
    {run : List Action} (hrun : ∀ action ∈ run, action.Recomputes) :
    (∀ before, before <+: run → ((build config clock host).performAll before).CleanShown) ↔
      ∀ before action, before ++ [action] <+: run →
        ((build config clock host).performAll before).AsideShown action := by
  have hconfig := config_build config clock host
  have hempty : ∀ f, (build config clock host).known f = none := by
    obtain ⟨graph, formulas, heq, -⟩ := build_eq config clock host
    rw [heq]
    exact fun f => rfl
  refine cleanShown_performAll_iff (inStep_build config clock host) (held_of_empty hempty)
    (by rwa [hconfig]) (by rwa [hconfig]) (fun f hformula hstate => ?_) hrun
  simpa [hempty] using (clean_iff hformula).1 hstate

/-- A formula field, and one that refers to it and to a plain field. -/
def gated : Document where
  fields := [⟨"x", .other, .null, none, []⟩, ⟨"b", .other, .null, some "true", []⟩,
    ⟨"c", .other, .null, some "and({x}, {b})", []⟩]
  distinct := by decide

/-- The plain field is written, and then the other formula field is to be recomputed. -/
def gatedRun : List Action :=
  [.update "x" (.boolean true), .recompute (NameSet.ofList ["b"])]

set_option maxRecDepth 8192 in
/-- The write computes the formula field aside, so that it is clean; its value is not handed
to the host then, nor when the field is recomputed. -/
theorem clean_unshown_after_update :
    let after := (build .standard ⟨0, 0⟩ gated).performAll gatedRun
    after.fieldState "b" = .clean ∧ after.known "b" = some (.ok (.boolean true)) ∧
      Host.value? after.host "b" = some .null := by
  refine ⟨?_, ?_, ?_⟩
  · cbv
  · cbv
  · cbv

set_option maxRecDepth 8192 in
/-- So one of the two actions left a field clean aside that the host did not show. -/
theorem clean_shown_iff_gated :
    (∀ action ∈ gatedRun, action.Recomputes) ∧
      ¬ ∀ before action, before ++ [action] <+: gatedRun →
        ((build .standard ⟨0, 0⟩ gated).performAll before).AsideShown action := by
  have hrun : ∀ action ∈ gatedRun, action.Recomputes := by
    intro action haction
    simp only [gatedRun, List.mem_cons, List.not_mem_nil, or_false] at haction
    rcases haction with rfl | rfl
    · trivial
    · trivial
  refine ⟨hrun, fun haside => ?_⟩
  have hshown := (clean_shown_iff ⟨0, 0⟩ gated (by decide) rfl hrun).2 haside gatedRun
    List.prefix_rfl "b" (by cbv) (by cbv)
  have hvalue : Host.value? ((build .standard ⟨0, 0⟩ gated).performAll gatedRun).host "b" =
      some .null := by cbv
  have hknown : ((build .standard ⟨0, 0⟩ gated).performAll gatedRun).known "b" =
      some (.ok (.boolean true)) := by cbv
  obtain ⟨r, hr, hstored⟩ := hshown
  obtain rfl := Option.some.inj (hknown.symm.trans hr)
  exact Value.noConfusion (Option.some.inj (hvalue.symm.trans hstored))

end Engine
end Formulary
