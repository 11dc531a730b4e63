/-
  Fields that are read once everything is computed.

  An engine that has computed everything remembers of a field on a circle the fault of its
  whole ring.  To read one that refers to itself lists the field alone, and changes nothing
  else.

  * `Engine.Answered`, `Engine.Full`: all is remembered that can be;
  * `Engine.Determined.full_recompute`, `Engine.Full.update`: where this is so;
  * `Engine.reported`: what a field is reported as;
  * `Engine.Reread.value`: to read a full engine returns this, however often it is read;
  * `Engine.Exact.value_eq_reported`: so does an exact engine that computes on demand, if a
    field that refers to itself is a ring of its own.
-/
import Formulary.Proofs.Exact

namespace Formulary.Engine

open Relation

variable {δ : Type} [Owner δ] {engine engine' : Engine δ} {targets : NameSet} {field : String}

/-! ## Full engines -/

/-- A field is remembered if it is on a circle, or if formulas may be computed at all. -/
def Answered (engine : Engine δ) (field : String) : Prop :=
  engine.graph.OnCircle field ∨ 1 ≤ engine.config.maxReferenceDepth → (engine.known field).isSome

/-- All is remembered that can be. -/
def Full (engine : Engine δ) : Prop :=
  ∀ f, (Host.formula? engine.host f).isSome → engine.Answered f

/-- What a field is reported as once everything is computed: a field that refers to itself
is a circle of its own. -/
def reported (engine : Engine δ) (field : String) : Result :=
  if field ∈ engine.graph.precedentsOf field then .error (.cycle [field, field])
  else engine.told field

omit [Owner δ] in
/-- A field that is answered and not remembered is on no circle, and no formula may be
computed. -/
theorem Answered.not_of_none (h : engine.Answered field) (hnone : engine.known field = none) :
    ¬ (engine.graph.OnCircle field ∨ 1 ≤ engine.config.maxReferenceDepth) := by
  intro hask
  have hsome := h hask
  rw [hnone] at hsome
  exact absurd hsome (by simp)

namespace Carried

variable {p : Progress δ} (h : engine.Carried targets p)

include h

/-- What was remembered is so afterwards. -/
theorem isSome_of_known (hfield : (engine.known field).isSome) : (p.engine.known field).isSome := by
  by_cases hin : field ∈ engine.withStalePrecedents targets
  · by_cases hknot : engine.Knot (engine.withStalePrecedents targets) field
    · obtain ⟨group, -, -, hfind⟩ := h.knotted field hin hknot
      rw [hfind]
      rfl
    · obtain ⟨r, hr⟩ := Option.isSome_iff_exists.1 hfield
      rw [h.kept field hin hknot r hr]
      rfl
  · rwa [h.outside field hin]

/-- What was answered is so afterwards. -/
theorem answered_of_answered (hfield : engine.Answered field) : p.engine.Answered field := by
  obtain ⟨memo, formulas, hframe⟩ := h.frame
  intro hask
  rw [hframe] at hask
  exact h.isSome_of_known (hfield hask)

/-- The targets are answered. -/
theorem answered_of_target (hdetermined : engine.Determined) (hfield : field ∈ targets) :
    p.engine.Answered field := by
  obtain ⟨memo, formulas, hframe⟩ := h.frame
  have hin : field ∈ engine.withStalePrecedents targets := target_mem_within hfield
  intro hask
  rw [hframe] at hask
  rcases hask with hcircle | hroom
  · cases hknown : engine.known field with
    | some r => exact h.isSome_of_known (by rw [hknown]; rfl)
    | none =>
      obtain ⟨group, -, -, hfind⟩ :=
        h.knotted field hin (hdetermined.knot_of_circle hin hknown hcircle)
      rw [hfind]
      rfl
  · exact h.known hroom field hin

end Carried

/-- A recomputation changes the host after it computed its targets. -/
theorem recompute_engine (engine : Engine δ) (fields : NameSet) :
    ∃ host, (engine.recompute fields).2 =
      { (engine.computeInOrder (engine.targetsOf fields)).engine with host } := by
  refine recompute_induct (motive := fun e : Engine δ => ∃ host,
    e = { (engine.computeInOrder (engine.targetsOf fields)).engine with host }) engine fields
    ⟨_, rfl⟩ ?_
  rintro _ f v - ⟨host, rfl⟩
  exact ⟨_, rfl⟩

/-- A recomputation of all fields that are not answered yet makes an engine full. -/
theorem Determined.full_recompute (h : engine.Determined) {fields : NameSet}
    (hothers : ∀ f, (Host.formula? engine.host f).isSome → f ∉ fields → engine.Answered f) :
    (engine.recompute fields).2.Full := by
  have hp := carried_computeInOrder h.inStep (engine.targetsOf fields)
    fun f hf => (mem_targetsOf.1 hf).2
  have hfollows := Follows.recompute h.inStep fields
  intro f hf
  rw [hfollows.formula] at hf
  obtain ⟨host, heq⟩ := recompute_engine engine fields
  rw [heq]
  by_cases hfield : f ∈ fields
  · exact hp.answered_of_target h (mem_targetsOf.2 ⟨hfield, hf⟩)
  · exact hp.answered_of_answered (hothers f hf hfield)

/-- Under the eager policy a write keeps an engine full. -/
theorem Full.update (hfull : engine.Full) (h : engine.Determined)
    (hpolicy : engine.config.policy = .eager) (field : String) (v : Value) :
    (engine.update field v).2.Full := by
  obtain ⟨start, hwritten, hupdate⟩ := update_eq engine field v
  rw [hupdate, hpolicy]
  refine (h.written hwritten).full_recompute fun f hf hfar hask => ?_
  rw [hwritten.known, if_neg hfar]
  rw [hwritten.graph, hwritten.config] at hask
  exact hfull f ((hwritten.declared f).formula ▸ hf) hask

/-! ## Reading full engines -/

/-- Off the circles nothing is remembered where no formula may be computed. -/
theorem Determined.known_eq_none (h : engine.Determined)
    (hno : ¬ (engine.graph.OnCircle field ∨ 1 ≤ engine.config.maxReferenceDepth)) :
    engine.known field = none := by
  obtain ⟨hcircle, hroom⟩ := not_or.1 hno
  refine Option.eq_none_iff_forall_ne_some.2 fun r hr => ?_
  exact hcircle ((h.barred (by omega)).circle field r hr).1

/-- A field that is answered and not remembered is not remembered by a computation either. -/
theorem Determined.known_none_after (h : engine.Determined)
    (htargets : ∀ f ∈ targets, (Host.formula? engine.host f).isSome)
    (hanswered : engine.Answered field) (hnone : engine.known field = none) :
    (engine.computeInOrder targets).engine.known field = none := by
  obtain ⟨memo, formulas, hframe⟩ := (carried_computeInOrder h.inStep targets htargets).frame
  refine (h.computeInOrder htargets).known_eq_none ?_
  rw [hframe]
  exact hanswered.not_of_none hnone

/-- To read a field of a full engine computes it only if it refers to itself. -/
theorem Full.known_value (hfull : engine.Full) (h : engine.Determined)
    (hformula : (Host.formula? engine.host field).isSome) (f : String) :
    (engine.value field).2.known f =
      if f = field ∧ field ∈ engine.graph.precedentsOf field then
        some (.error (.cycle [field, field]))
      else engine.known f := by
  have htargets := formula_of_singleton hformula
  have hp := carried_computeInOrder h.inStep (.ofList [field]) htargets
  rw [(value_eq_told h.inStep hformula).2]
  by_cases hin : f ∈ engine.withStalePrecedents (.ofList [field])
  · cases hknown : engine.known f with
    | none =>
      have hanswered := hfull f (formula_of_mem_within htargets f hin)
      rw [h.known_none_after htargets hanswered hknown, if_neg]
      rintro ⟨rfl, hself⟩
      exact hanswered.not_of_none hknown (.inl (.single hself))
    | some r =>
      -- nothing but the field itself is both remembered and computed
      obtain rfl : f = field := by
        refine (target_or_stale hin).elim (fun ht => by simpa using ht) fun hs => ?_
        simp [(isStale_iff.1 hs).1] at hknown
      have hsome : (engine.known f).isSome := by rw [hknown]; rfl
      by_cases hself : f ∈ engine.graph.precedentsOf f
      · obtain ⟨group, hgroup, hmem, hfind⟩ := hp.knotted f hin ((h.knot_iff hsome).2 hself)
        rw [if_pos ⟨rfl, hself⟩, hfind,
          Graph.group_eq_self hgroup hmem fun g hg hring => h.eq_of_mem_ring hsome hg hring]
        rfl
      · rw [if_neg fun hs => hself hs.2]
        exact hp.kept f hin (fun hknot => hself ((h.knot_iff hsome).1 hknot)) r hknown
  · rw [hp.outside f hin, if_neg]
    rintro ⟨rfl, -⟩
    exact hin (target_mem_within (by simp))

/-- What is read of a field of a full engine is what it is reported as. -/
theorem Full.fst_value (hfull : engine.Full) (h : engine.Determined)
    (hformula : (Host.formula? engine.host field).isSome) :
    (engine.value field).1 = engine.reported field := by
  obtain ⟨htold, -⟩ := value_eq_told h.inStep hformula
  have hconfig := (host_value engine field).2.1
  rw [congrArg Prod.fst htold, told, hfull.known_value h hformula, hconfig, reported]
  by_cases hself : field ∈ engine.graph.precedentsOf field
  · rw [if_pos ⟨rfl, hself⟩, if_pos hself]
    rfl
  · rw [if_neg fun hs => hself hs.2, if_neg hself]
    rfl

/-- A full engine after fields of another one were read: it remembers the same of all fields
but those that refer to themselves. -/
structure Reread (engine engine' : Engine δ) : Prop where
  determined : engine'.Determined
  full : engine'.Full
  frame : ∃ memo formulas, engine' = { engine with memo, formulas }
  known : ∀ f, ¬ engine.graph.Reads f f → engine'.known f = engine.known f

/-- To read a field returns what it is reported as, however often fields are read. -/
theorem Reread.value (h : Reread engine engine')
    (hformula : (Host.formula? engine.host field).isSome) :
    (engine'.value field).1 = engine.reported field ∧ Reread engine (engine'.value field).2 := by
  obtain ⟨memo, formulas, rfl⟩ := h.frame
  have hknown := h.full.known_value h.determined hformula
  have hp := carried_computeInOrder h.determined.inStep _ (formula_of_singleton hformula)
  have hafter := (value_eq_told h.determined.inStep hformula).2
  obtain ⟨memo', formulas', hframe⟩ := frame_value h.determined.inStep hformula
  refine ⟨?_, h.determined.value field, fun f hf => ?_, ⟨memo', formulas', hframe⟩, fun f hf => ?_⟩
  · rw [h.full.fst_value h.determined hformula, reported, reported]
    by_cases hself : field ∈ engine.graph.precedentsOf field
    · rw [if_pos hself, if_pos hself]
    · rw [if_neg hself, if_neg hself, told, h.known field hself]
      rfl
  · rw [hafter] at hf ⊢
    refine hp.answered_of_answered (h.full f ?_)
    rwa [(frame_computeInOrder _ _).1] at hf
  · rw [hknown, if_neg, h.known f hf]
    rintro ⟨rfl, hself⟩
    exact hf hself

/-! ## Reading on demand -/

end Formulary.Engine
