/-
  Engines whose results are determined by what formulas look at.

  Where formula fields may be computed, what is remembered is up to date, and where they may
  not, nothing but circles is remembered.  Either way the result of a field is one that
  depends on the formulas and the plain fields only: not on what was computed before, nor on
  when it was.

  * `Engine.Determined`: such engines;
  * `Engine.Determined.recompute`, `Engine.Determined.update`, `Engine.Determined.value`: the
    operations keep engines so;
  * `Engine.update_host_induct`, `Engine.host_value`: what they change in the host;
  * `Engine.clock_recompute`, `Engine.clock_update`: none of them moves the clock;
  * `Engine.Determined.alike_value`: engines that look alike to formulas have alike results.
-/
import Formulary.Proofs.Barred
import Formulary.Proofs.Rebuilt

namespace Formulary.Engine

open Relation

variable {δ : Type} [Owner δ] {engine engine' : Engine δ} {field : String}

/-- An engine in step with its host that remembers only what it would compute anew. -/
structure Determined (engine : Engine δ) : Prop where
  inStep : engine.InStep
  settled : 1 ≤ engine.config.maxReferenceDepth → engine.Settled
  barred : engine.config.maxReferenceDepth = 0 → engine.Barred

theorem determined_of_empty (hinStep : engine.InStep) (h : ∀ f, engine.known f = none) :
    engine.Determined :=
  ⟨hinStep, fun _ => settled_of_empty h, fun _ => barred_of_empty h⟩

theorem determined_build (config : Config) (clock : Instant) (host : δ) :
    (build config clock host).Determined :=
  determined_of_empty (inStep_build config clock host) (known_build config clock host)

/-! ## Changes of the host -/

/-- To read a field leaves the host, the limits and the time as they are. -/
theorem host_value (engine : Engine δ) (field : String) :
    (engine.value field).2.host = engine.host ∧ (engine.value field).2.config = engine.config ∧
      (engine.value field).2.clock = engine.clock := by
  obtain ⟨hhost, hconfig, hclock, -⟩ := frame_computeInOrder engine (NameSet.ofList [field])
  unfold value
  cases Host.formula? engine.host field with
  | some text =>
    dsimp only
    cases (engine.computeInOrder (NameSet.ofList [field])).results.find? field with
    | some r => exact ⟨hhost, hconfig, hclock⟩
    | none => exact ⟨hhost, hconfig, hclock⟩
  | none => cases Host.value? engine.host field <;> exact ⟨rfl, rfl, rfl⟩

/-- What holds of a host that takes a written value, and again after each push into a formula
field, holds of the host after an update. -/
theorem update_host_induct {motive : δ → Prop} (engine : Engine δ) (field : String) (v : Value)
    (start : motive (Host.write engine.host field v))
    (step : ∀ host f v, (Host.formula? engine.host f).isSome → motive host →
      motive (Host.push host f v)) :
    motive (engine.update field v).2.host := by
  obtain ⟨written, h, hupdate⟩ := update_eq engine field v
  rw [← h.host] at start
  rw [hupdate]
  cases engine.config.policy with
  | whenRead => exact start
  | eager =>
    refine recompute_induct (motive := fun e : Engine δ => motive e.host) _ _ ?_
      fun e f v hf he => step e.host f v ?_ he
    · rwa [(frame_computeInOrder _ _).1]
    · exact (h.declared f).formula ▸ (mem_targetsOf.1 hf).2

/-- An update returns results of formula fields only. -/
theorem formula_of_update {engine : Engine δ} {v : Value} {f : String}
    (h : ((engine.update field v).1.find? f).isSome) : (Host.formula? engine.host f).isSome := by
  obtain ⟨written, hwritten, hupdate⟩ := update_eq engine field v
  rw [hupdate] at h
  revert h
  cases engine.config.policy with
  | whenRead => simp
  | eager =>
    intro h
    exact (hwritten.declared f).formula ▸ (mem_targetsOf.1 (target_of_results h)).2

/-- A recomputation leaves the time as it is. -/
theorem clock_recompute (engine : Engine δ) (fields : NameSet) :
    (engine.recompute fields).2.clock = engine.clock :=
  recompute_induct (motive := fun e : Engine δ => e.clock = engine.clock) engine fields
    (frame_computeInOrder _ _).2.2.1 fun _ _ _ _ he => he

/-- So does a write. -/
theorem clock_update (hinStep : engine.InStep) (field : String) (v : Value) :
    (engine.update field v).2.clock = engine.clock := by
  obtain ⟨start, hwritten, hupdate⟩ := update_eq engine field v
  have hclock : start.clock = engine.clock := (hwritten.forgotten hinStep).clock.symm
  rw [hupdate]
  cases engine.config.policy with
  | eager => exact (clock_recompute _ _).trans hclock
  | whenRead => exact hclock

/-! ## Operations -/

namespace Determined

variable (h : engine.Determined)

include h

theorem sound (hroom : 1 ≤ engine.config.maxReferenceDepth) : engine.Sound :=
  ⟨h.inStep, h.settled hroom⟩

/-- A recomputation keeps an engine determined. -/
theorem recompute (fields : NameSet) : (engine.recompute fields).2.Determined := by
  have hfollows := Follows.recompute h.inStep fields
  refine ⟨hfollows.inStep, fun hroom => ?_, fun hroom => ?_⟩
  · rw [hfollows.config] at hroom
    exact ((h.sound hroom).recompute hroom fields).1.settled
  · rw [hfollows.config] at hroom
    exact (h.barred hroom).recompute h.inStep hroom fields

/-- To compute everything keeps an engine determined. -/
theorem evaluateAll : engine.evaluateAll.2.Determined :=
  (determined_of_empty (h.inStep.with_memo engine.memo.clear) fun _ => rfl).recompute _

/-- To forget what depends on a written field keeps an engine determined. -/
theorem written {v : Value} {start : Engine δ} (hwritten : engine.Written field v start) :
    start.Determined := by
  have hinStep := hwritten.inStep h.inStep
  refine ⟨hinStep, fun hroom => ?_, fun hroom => ?_⟩
  · rw [hwritten.config] at hroom
    exact (h.settled hroom).forget h.inStep hinStep (hwritten.forgotten h.inStep)
  · rw [hwritten.config] at hroom
    exact (h.barred hroom).forget h.inStep hwritten.graph hwritten.known

/-- A write, whatever the policy is, keeps an engine determined. -/
theorem update (field : String) (v : Value) : (engine.update field v).2.Determined := by
  obtain ⟨start, hwritten, hupdate⟩ := update_eq engine field v
  have hstart := h.written hwritten
  rw [hupdate]
  cases engine.config.policy with
  | eager => exact hstart.recompute _
  | whenRead => exact hstart

/-- To read a field keeps an engine determined. -/
theorem value (field : String) : (engine.value field).2.Determined := by
  cases hformula : Host.formula? engine.host field with
  | none =>
    rw [value_of_none hformula]
    exact h
  | some text =>
    have hfollows := Follows.value h.inStep field
    refine ⟨hfollows.inStep, fun hroom => ?_, fun hroom => ?_⟩
    · rw [hfollows.config] at hroom
      exact ((h.sound hroom).value hroom field).1.settled
    · rw [hfollows.config] at hroom
      exact ((h.barred hroom).value h.inStep hroom (by rw [hformula]; rfl)).1

/-- What a field comes to depends on what formulas look at: engines that look alike to them
and have the same limits have alike results, at the same time or where no formula calls `now`. -/
theorem alike_value (h' : engine'.Determined) (hview : engine.SameView engine')
    (hroom : engine.config.maxReferenceDepth = engine'.config.maxReferenceDepth)
    (htime : engine.clock = engine'.clock ∨ Timeless engine.config.maxDepth engine.host)
    (hformula : (Host.formula? engine.host field).isSome) :
    Alike (engine.value field).1 (engine'.value field).1 := by
  have hformula' : (Host.formula? engine'.host field).isSome :=
    (hview.declared field).formula ▸ hformula
  rcases Nat.eq_zero_or_pos engine.config.maxReferenceDepth with hbarred | hpos
  · have hbarred' : engine'.config.maxReferenceDepth = 0 := hroom ▸ hbarred
    obtain ⟨-, hcircle, hfree⟩ := (h.barred hbarred).value h.inStep hbarred hformula
    obtain ⟨-, hcircle', hfree'⟩ := (h'.barred hbarred').value h'.inStep hbarred' hformula'
    by_cases hc : engine.graph.OnCircle field
    · obtain ⟨fields, hfields⟩ := hcircle hc
      obtain ⟨fields', hfields'⟩ := hcircle' (hview.onCircle h.inStep h'.inStep hc)
      rw [hfields, hfields']
      exact .cycles _ _
    · have hc' : ¬ engine'.graph.OnCircle field := fun hc' => hc <|
        TransGen.mono (fun _ _ hr => (hview.reads_iff h.inStep h'.inStep).2 hr) _ _ hc'
      refine .inl ?_
      rw [hfree hc, hfree' hc', refusal, refusal, Session.chainTooLong, Session.chainTooLong, hroom]
  · have hpos' : 1 ≤ engine'.config.maxReferenceDepth := hroom ▸ hpos
    obtain ⟨hsound, hknown⟩ := (h.sound hpos).value hpos field
    obtain ⟨hsound', hknown'⟩ := (h'.sound hpos').value hpos' field
    obtain ⟨hhost, hconfig, hclock⟩ := host_value engine field
    obtain ⟨hhost', hconfig', hclock'⟩ := host_value engine' field
    have hview' : (engine.value field).2.SameView (engine'.value field).2 := by
      refine ⟨?_, fun f => ?_, fun f hf => ?_⟩
      · rw [hconfig, hconfig']
        exact hview.limit
      · rw [hhost, hhost']
        exact hview.declared f
      · rw [hhost] at hf ⊢
        rw [hhost']
        exact hview.stored f hf
    refine hsound.settled.alike_known hsound'.settled hsound.inStep hsound'.inStep hview'
      ?_ (by rwa [hhost]) (hknown hformula) (hknown' hformula')
    rw [hclock, hclock', hhost, hconfig]
    exact htime

end Determined

end Formulary.Engine
