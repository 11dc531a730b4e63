/-
  What is left of the evaluation of an expression.

  To evaluate an expression remembers the formula fields that it reaches.  These are
  read from within the expression, without the order of their references, so a circle
  may go unseen; and what is remembered is not pushed any more.

  * `Engine.evaluate_unnoticed_iff`: an evaluation goes unnoticed by all later actions
    exactly if it reaches no formula field that is not remembered;
  * `Engine.value_guarded_after_evaluate`: a field on a circle that has a value once
    the other one was evaluated.
-/
import Formulary.Proofs.Twins
import Mathlib

namespace Formulary

namespace Session

variable {δ : Type} [Host δ] {host : δ} {config : Config} {clock : Instant}

/-- Where the chain has no room for a field, nothing is remembered. -/
theorem readField_full (chain : List String) (field : String) (depth : Nat) (s : Session) :
    (readField host config clock 0 chain field depth s).2.memo.results = s.memo.results := by
  obtain ⟨-, hresults⟩ := s.memo.lookUp_results field
  unfold readField
  generalize s.memo.lookUp field = r at hresults
  obtain ⟨found, memo⟩ := r
  cases found with
  | some r => exact hresults
  | none =>
    dsimp only
    split
    · exact hresults
    · exact hresults

end Session

namespace Engine

section

variable {δ : Type} [Owner δ] {engine engine' : Engine δ} {field : String}

theorem known_evaluate_full (hroom : engine.config.maxReferenceDepth = 0) (text : String) :
    (engine.evaluate text).2.memo.results = engine.memo.results := by
  unfold evaluate
  cases Expr.ofText engine.config.maxDepth text with
  | error failure => rfl
  | ok e =>
    refine Evaluation.run_keeps (fun s : Session => s.memo.results = engine.memo.results)
      (fun path depth s hs => Eq.trans ?_ hs) _ rfl
    unfold Session.answer Session.answerWith
    cases Host.formula? engine.host path.root with
    | none => cases Host.value? engine.host path.root <;> rfl
    | some text =>
      rw [hroom]
      exact Session.readField_full [] path.root depth s

/-- If an evaluation leaves the state of every field as it was, it leaves a twin. -/
theorem twin_evaluate (hinStep : engine.InStep) {text : String}
    (hstale : ∀ f, (engine.evaluate text).2.isStale f = engine.isStale f) :
    engine.Twin (engine.evaluate text).2 := by
  obtain ⟨s, heq, hgrown⟩ := evaluate_eq engine text
  rw [heq] at hstale ⊢
  refine ⟨⟨_, _, rfl⟩, fun f => ?_, hinStep.formulas, hgrown.formulas hinStep.formulas⟩
  cases hknown : engine.known f with
  | some r => exact (hgrown.kept f r hknown).symm
  | none =>
    cases hadded : (engine.resume s).known f with
    | none => rfl
    | some r =>
      -- what is added is the result of a formula field, which was stale and is not any more
      have hformula := hgrown.added f hknown (Option.isSome_iff_exists.2 ⟨r, hadded⟩)
      have hstill := (hstale f).trans (isStale_iff.2 ⟨hknown, hformula⟩)
      rw [(isStale_iff.1 hstill).1] at hadded
      exact absurd hadded (by simp)

end

/-! ## Pushed values -/

section

variable {δ : Type} [Owner δ] {engine : Engine (Traced δ)}

/-- The values that some fields show for their results, in their order. -/
def handed (host : Traced δ) (results : Results) (fields : List String) : List (String × Value) :=
  fields.filterMap fun f =>
    (results.find? f).map fun r => (f, Value.shown (Host.kind host f) r)

theorem mem_handed {host : Traced δ} {results : Results} {fields : List String}
    {pushed : String × Value} (h : pushed ∈ handed host results fields) :
    ∃ r, results.find? pushed.1 = some r ∧ pushed.2 = Value.shown (Host.kind host pushed.1) r := by
  obtain ⟨f, -, hf⟩ := List.mem_filterMap.1 h
  obtain ⟨r, hr, rfl⟩ := Option.map_eq_some_iff.1 hf
  exact ⟨r, hr, rfl⟩

theorem map_fst_handed (host : Traced δ) {results : Results} {fields : List String}
    (hresults : ∀ f ∈ fields, (results.find? f).isSome) :
    (handed host results fields).map Prod.fst = fields := by
  induction fields with
  | nil => rfl
  | cons field rest ih =>
    obtain ⟨hfield, hrest⟩ := List.forall_mem_cons.1 hresults
    obtain ⟨r, hr⟩ := Option.isSome_iff_exists.1 hfield
    rw [handed, List.filterMap_cons, hr]
    exact congrArg (field :: ·) (ih hrest)

theorem pushed_foldl_push (results : Results) (fields : List String) (engine : Engine (Traced δ)) :
    (fields.foldl (push results) engine).host.pushed =
      engine.host.pushed ++ handed engine.host results fields := by
  induction fields generalizing engine with
  | nil => exact (List.append_nil _).symm
  | cons field rest ih =>
    rw [List.foldl_cons, ih, handed, handed, List.filterMap_cons]
    unfold push
    cases results.find? field with
    | none => rfl
    | some r =>
      -- a push leaves the kinds of fields as they are
      have hkind (f : String) : Host.kind (Host.push engine.host field
          (Value.shown (Host.kind engine.host field) r)) f = Host.kind engine.host f :=
        (Owner.declared_push engine.host field _ f).kind
      simp only [hkind]
      exact List.append_assoc _ [_] _

/-- A recomputation pushes what its fresh targets show for the results that it returns. -/
theorem pushed_recompute_eq (engine : Engine (Traced δ)) (fields : NameSet) :
    (engine.recompute fields).2.host.pushed = engine.host.pushed ++
      handed engine.host (engine.recompute fields).1
        (engine.computeInOrder (engine.targetsOf fields)).fresh := by
  rw [recompute_unfold, pushed_foldl_push, (frame_computeInOrder engine _).1]

/-- Its fresh targets are the stale fields among those to recompute, each once, and it returns
a result of each. -/
theorem fresh_recompute (hinStep : engine.InStep) (hroom : 1 ≤ engine.config.maxReferenceDepth)
    (fields : NameSet) :
    let fresh := (engine.computeInOrder (engine.targetsOf fields)).fresh
    fresh.Nodup ∧ (∀ f, f ∈ fresh ↔ f ∈ fields ∧ engine.isStale f = true) ∧
      ∀ f ∈ fresh, ((engine.recompute fields).1.find? f).isSome := by
  have hp := scheduled_computeInOrder hinStep hroom (engine.targetsOf fields)
    fun f hf => (mem_targetsOf.1 hf).2
  refine ⟨hp.nodup, fun f => ?_, hp.isSome_of_fresh⟩
  rw [hp.fresh, mem_targetsOf, isStale_iff]
  constructor
  · rintro ⟨-, ⟨hf, hformula⟩, hnone⟩
    exact ⟨hf, hnone, hformula⟩
  · rintro ⟨hf, hnone, hformula⟩
    exact ⟨target_mem_within (mem_targetsOf.2 ⟨hf, hformula⟩), ⟨hf, hformula⟩, hnone⟩

/-- A recomputation pushes values of the stale fields among some fields, each once, and of
no other. -/
theorem pushed_recompute (hinStep : engine.InStep) (hroom : 1 ≤ engine.config.maxReferenceDepth)
    (fields : NameSet) :
    ∃ pushes, (engine.recompute fields).2.host.pushed = engine.host.pushed ++ pushes ∧
      (pushes.map Prod.fst).Nodup ∧
      ∀ f, f ∈ pushes.map Prod.fst ↔ f ∈ fields ∧ engine.isStale f = true := by
  obtain ⟨hnodup, hmem, hresults⟩ := fresh_recompute hinStep hroom fields
  refine ⟨_, pushed_recompute_eq engine fields, ?_⟩
  rw [map_fst_handed engine.host hresults]
  exact ⟨hnodup, hmem⟩

/-! ## Evaluations that go unnoticed -/

/-- No later action tells two engines apart: it returns the same, and pushes the same
values to the host. -/
def Unnoticed (before after : Engine (Traced δ)) : Prop :=
  ∀ later, after.answers later = before.answers later ∧
    (after.performAll later).host.pushed = (before.performAll later).host.pushed

/-- Engines that no action tells apart have the same stale fields: to recompute a field
pushes it only if it is stale. -/
theorem Unnoticed.isStale_eq {engine' : Engine (Traced δ)} (h : Unnoticed engine engine')
    (hinStep : engine.InStep) (hinStep' : engine'.InStep)
    (hroom : 1 ≤ engine.config.maxReferenceDepth) (hroom' : 1 ≤ engine'.config.maxReferenceDepth)
    (field : String) : engine'.isStale field = engine.isStale field := by
  have hfield : field ∈ NameSet.ofList [field] := by simp
  obtain ⟨pushes, hpushed, -, hmem⟩ := pushed_recompute hinStep hroom (NameSet.ofList [field])
  obtain ⟨pushes', hpushed', -, hmem'⟩ := pushed_recompute hinStep' hroom' (NameSet.ofList [field])
  have hstart : engine'.host.pushed = engine.host.pushed := (h []).2
  have hend : (engine'.recompute (NameSet.ofList [field])).2.host.pushed =
      (engine.recompute (NameSet.ofList [field])).2.host.pushed :=
    (h [.recompute (NameSet.ofList [field])]).2
  rw [hpushed, hpushed', hstart] at hend
  obtain rfl : pushes' = pushes := List.append_cancel_left hend
  rw [Bool.eq_iff_iff]
  constructor
  · intro hstale
    exact ((hmem field).1 ((hmem' field).2 ⟨hfield, hstale⟩)).2
  · intro hstale
    exact ((hmem' field).1 ((hmem field).2 ⟨hfield, hstale⟩)).2

theorem unnoticed_evaluate_iff (hinStep : engine.InStep) (text : String) :
    Unnoticed engine (engine.evaluate text).2 ↔
      ∀ f, (engine.evaluate text).2.isStale f = engine.isStale f := by
  constructor
  · intro hsame f
    have hfollows := Follows.evaluate hinStep text
    rcases Nat.eq_zero_or_pos engine.config.maxReferenceDepth with hfull | hroom
    · -- then nothing is remembered, and the states are the same anyway
      have hresults := known_evaluate_full hfull text
      rw [isStale, isStale, state_beq_dirty, state_beq_dirty, hresults, hfollows.formula]
    · exact hsame.isStale_eq hinStep hfollows.inStep hroom (hfollows.config ▸ hroom) f
  · intro hstale later
    have htwin := twin_evaluate hinStep hstale
    refine ⟨(htwin.answers_eq later).symm, ?_⟩
    rw [(htwin.performAll later).host_eq]

end

/-- At any point of any run, the evaluation of an expression goes unnoticed by all that
may follow exactly if it leaves every field as clean or dirty as it was. -/
theorem evaluate_unnoticed_iff {δ : Type} [Owner δ] (config : Config) (clock : Instant) (host : δ)
    (run : List Action) (text : String) :
    let before := (build config clock (⟨host, []⟩ : Traced δ)).performAll run
    let after := (before.perform (.evaluate text)).2
    (∀ later, after.answers later = before.answers later ∧
      (after.performAll later).host.pushed = (before.performAll later).host.pushed) ↔
    ∀ f, after.fieldState f = before.fieldState f := by
  intro before after
  have hinStep : before.InStep := (inStep_run (inStep_build config clock _) run).1
  refine (unnoticed_evaluate_iff hinStep text).trans (forall_congr' fun f => ?_)
  rw [fieldState_eq, fieldState_eq]
  show (after.isStale f = before.isStale f) ↔ _
  cases after.isStale f <;> cases before.isStale f <;> decide

/-- Two fields that refer to each other, the first one only in a case that does not
arise. -/
def guarded : Document where
  fields := [⟨"a", .other, .null, some "true || {b}", []⟩, ⟨"b", .other, .null, some "{a}", []⟩]
  distinct := by decide

set_option maxRecDepth 8192 in
/-- Read directly the first field is on a circle; once the second one was evaluated, it
has a value. -/
theorem value_guarded_after_evaluate :
    ((build .standard ⟨0, 0⟩ guarded).perform (.value "a")).1.find? "a" =
        some (.error (.cycle ["a", "b", "a"])) ∧
      (((build .standard ⟨0, 0⟩ guarded).perform (.evaluate "{b}")).2.perform (.value "a")).1.find?
        "a" = some (.ok (.boolean true)) := by
  constructor
  · cbv
  · cbv

end Engine
end Formulary
