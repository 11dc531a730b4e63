/-
  Reading a field through an expression.

  A field is read in order when its value is asked for: what it needs is computed
  before.  Through an expression it is read without an order, one formula inside the
  other, so the limits of nesting may be met, and a circle may go unseen.

  * `Engine.evaluate_mention_eq_value_iff`: when exactly both ways come to one result;
  * `Engine.value_ne_evaluate_chain`: a chain of fields that only one way is too long.
-/
import Formulary.Proofs.Mention
import Formulary.Proofs.Planned
import Formulary.Proofs.Run
import Mathlib

namespace Formulary.Engine

open Session

section

variable {δ : Type} [Owner δ] {engine : Engine δ} {id : String}

/-- To raise a fault in the place of a value changes a result exactly if it is one. -/
theorem bind_toResult_eq_self (r : Result) :
    r.bind Value.toResult = r ↔ ∀ fault, r ≠ .ok (.error fault) := by
  cases r with
  | error fault => simp [Except.bind]
  | ok v => cases v <;> simp [Except.bind, Value.toResult]

/-- When a result whose fault is raised gives another one, if off the circles both are
one. -/
theorem bind_toResult_eq_iff {r direct : Result} (hdirect : ¬ Circular direct → r = direct) :
    r.bind Value.toResult = direct ↔ (∀ fault, direct ≠ .ok (.error fault)) ∧
      (Circular direct → r.bind Value.toResult = direct) := by
  constructor
  · rintro rfl
    refine ⟨(bind_toResult_eq_self _).1 ?_, fun _ => rfl⟩
    cases r with
    | error fault => rfl
    | ok v => cases v <;> rfl
  · rintro ⟨hvalue, hcircle⟩
    by_cases hcircular : Circular direct
    · exact hcircle hcircular
    · rw [hdirect hcircular]
      exact (bind_toResult_eq_self direct).2 hvalue

/-- An expression that only mentions a formula field reads it below the top. -/
theorem evaluate_mention (hid : Document.isId id = true) (hdepth : 0 < engine.config.maxDepth)
    (hformula : (Host.formula? engine.host id).isSome) :
    let step := readField engine.host engine.config engine.clock engine.config.maxReferenceDepth []
      id 1 engine.session
    engine.evaluate (Expr.mention id) = (step.1.bind Value.toResult, engine.resume step.2) := by
  intro step
  obtain ⟨text, htext⟩ := Option.isSome_iff_exists.1 hformula
  have hselect : (Path.field id).select (Host.columns engine.host id) = Value.toResult := by
    funext v
    cases v <;> rfl
  have hanswer : Session.answer engine.host engine.config engine.clock (.field id) 1
      engine.session = (step.1.bind Value.toResult, step.2) := by
    unfold Session.answer answerWith
    simp only [show (Path.field id).root = id from rfl, htext, hselect]
    rfl
  rw [evaluate_reference hdepth (Expr.ofText_mention hid hdepth) hanswer]
  -- to raise a fault in the place of a value once more changes nothing
  cases step.1 with
  | error fault => rfl
  | ok v => cases v <;> rfl

theorem evaluate_mention_zero (hid : Document.isId id = true)
    (hdepth : engine.config.maxDepth = 0) :
    engine.evaluate (Expr.mention id) =
      (.error (⟨0, .tooDeep engine.config.maxDepth⟩ : ParseFailure).toFault, engine) := by
  unfold evaluate
  rw [hdepth, Expr.ofText_mention_zero hid]

/-- Where a limit has a part in what a field comes to below the top, the field is not
remembered.  Otherwise it is, and off the circles with what reading it in order comes
to. -/
theorem readField_cases (hinStep : engine.InStep) (hroom : 1 ≤ engine.config.maxReferenceDepth)
    (hformula : (Host.formula? engine.host id).isSome) :
    let step := readField engine.host engine.config engine.clock engine.config.maxReferenceDepth []
      id 1 engine.session
    (step.2.memo.results.find? id = none ∧
        ∃ fault, step.1 = .error fault ∧ LimitFault engine.config fault) ∨
      step.2.memo.results.find? id = some step.1 ∧
        (¬ Circular (engine.value id).1 → step.1 = (engine.value id).1) := by
  intro step
  obtain ⟨p, r, hvalue, hr, -, hp⟩ := value_eq hinStep hroom hformula
  have hmem : id ∈ engine.withStalePrecedents (NameSet.ofList [id]) :=
    target_mem_within (by simp)
  rw [hvalue]
  cases hknown : engine.known id with
  | some r' =>
    -- what is remembered is not read anew, and computing in order keeps it off the circles
    obtain ⟨hread, hsame⟩ := readField_clean engine.host engine.config engine.clock
      engine.config.maxReferenceDepth [] 1
      (show engine.session.memo.results.find? id = _ from hknown)
    have hread : step.1 = r' := hread
    rw [hread]
    refine .inr ⟨(congrArg (·.find? id) hsame.results).trans hknown, fun hcircular => ?_⟩
    have hoff := (off_circles hp hmem hr hcircular fun c hc => absurd hc List.not_mem_nil).1
    have hkept := hp.kept id (NameSet.mem_names.2 hmem) hoff r' hknown
    exact Option.some.inj (hkept.symm.trans hr)
  | none =>
    have htargets : ∀ f ∈ NameSet.ofList [id], engine.known f = none := by
      intro f hf
      rw [NameSet.mem_ofList, List.mem_singleton] at hf
      exact hf ▸ hknown
    have hplanned : ¬ Circular r → AsPlanned engine p r step := fun hcircular =>
      planned_readField hinStep hp htargets _ hmem (fun c hc => absurd hc List.not_mem_nil) hr
        hcircular ⟨planned_session hinStep hp htargets, rfl⟩
    have hlimited : step.2.limited = true →
        ∃ fault, step.1 = .error fault ∧ LimitFault engine.config fault :=
      limited_readField engine.host engine.clock _ [] id 1 Bool.false_ne_true
    have hremembered : step.2.memo.results.find? id =
        if step.2.limited then none else some step.1 := by
      obtain ⟨room, hroom⟩ := Nat.exists_eq_add_of_le' hroom
      simp only [step, hroom]
      exact remembered_readField engine.clock room 1 rfl hformula List.not_mem_nil hknown
    cases hl : step.2.limited with
    | true =>
      rw [hl, if_pos rfl] at hremembered
      exact .inl ⟨hremembered, hlimited hl⟩
    | false =>
      rw [hl, if_neg Bool.false_ne_true] at hremembered
      refine .inr ⟨hremembered, fun hcircular => ?_⟩
      rcases hplanned hcircular with ⟨heq, -⟩ | ⟨-, -, htrue⟩
      · exact heq
      · exact absurd (hl.symm.trans htrue) Bool.false_ne_true

/-- So reading the field through an expression either tells of a limit, or returns what is
remembered of the field afterwards. -/
theorem readThrough_cases (hinStep : engine.InStep) (hroom : 1 ≤ engine.config.maxReferenceDepth)
    (hid : Document.isId id = true) (hformula : (Host.formula? engine.host id).isSome) :
    let through := (engine.evaluate (Expr.mention id)).1
    let after := (engine.evaluate (Expr.mention id)).2
    ((engine.config.maxDepth = 0 ∨ after.fieldState id = .dirty) ∧
        ∃ fault, LimitFault engine.config fault ∧ through = .error fault) ∨
      0 < engine.config.maxDepth ∧ after.fieldState id = .clean ∧ ∃ r, after.known id = some r ∧
        through = r.bind Value.toResult ∧
        (¬ Circular (engine.value id).1 → r = (engine.value id).1) := by
  rcases Nat.eq_zero_or_pos engine.config.maxDepth with hzero | hdepth
  · rw [evaluate_mention_zero hid hzero]
    exact .inl ⟨.inl hzero, _, .text 0, rfl⟩
  · have hcases := readField_cases hinStep hroom hformula
    rw [evaluate_mention hid hdepth hformula]
    generalize readField engine.host engine.config engine.clock engine.config.maxReferenceDepth []
      id 1 engine.session = step at hcases ⊢
    intro through after
    have hstate : after.fieldState id = if (after.known id).isNone then .dirty else .clean := by
      rw [fieldState_eq, isStale, state_beq_dirty, show Host.formula? after.host id =
        Host.formula? engine.host id from rfl, hformula, Bool.and_true]
    rcases hcases with ⟨hnone, fault, heq, hlimit⟩ | ⟨hsome, heq⟩
    · refine .inl ⟨.inr ?_, fault, hlimit, by simp only [through, heq]; rfl⟩
      rw [hstate, show after.known id = none from hnone]
      rfl
    · refine .inr ⟨hdepth, ?_, step.1, hsome, rfl, heq⟩
      rw [hstate, show after.known id = some step.1 from hsome]
      rfl

end

/-- At any point of any run, reading a formula field through an expression comes to what
reading it directly does exactly if it leaves the field clean, the direct result is no
fault in the place of a value, and, if that result tells of a circle, so does what is
remembered of the field from then on; or else if both ways tell of one limit.  If the
field is left dirty, or nothing may be nested at all, a limit was met; else the result is
what is remembered, and off the circles this is the direct result. -/
theorem evaluate_mention_eq_value_iff {δ : Type} [Owner δ] {config : Config} (clock : Instant)
    (host : δ) (hroom : 1 ≤ config.maxReferenceDepth) (run : List Action) {id : String}
    (hid : Document.isId id = true) :
    let engine := (build config clock host).performAll run
    let direct := (engine.value id).1
    let through := (engine.evaluate (Expr.mention id)).1
    let after := (engine.evaluate (Expr.mention id)).2
    (Host.formula? engine.host id).isSome →
      (through = direct ↔
        0 < config.maxDepth ∧ after.fieldState id = .clean ∧
            (∀ fault, direct ≠ .ok (.error fault)) ∧
            (Circular direct → ∃ r, after.known id = some r ∧ r.bind Value.toResult = direct) ∨
          ∃ fault, LimitFault config fault ∧ through = .error fault ∧ direct = .error fault) ∧
      (config.maxDepth = 0 ∨ after.fieldState id = .dirty →
        ∃ fault, LimitFault config fault ∧ through = .error fault) ∧
      (0 < config.maxDepth → after.fieldState id = .clean →
        ∃ r, after.known id = some r ∧ through = r.bind Value.toResult ∧
          (¬ Circular direct → r = direct)) := by
  intro engine direct through after hformula
  obtain ⟨hinStep, hconfig⟩ := inStep_run (inStep_build config clock host) run
  replace hconfig : engine.config = config := hconfig.trans (config_build config clock host)
  replace hinStep : engine.InStep := hinStep
  clear_value engine
  subst hconfig
  rcases readThrough_cases hinStep hroom hid hformula with
    ⟨hmet, fault, hlimit, heq⟩ | ⟨hdepth, hclean, r, hr, heq, hdirect⟩
  · have hnot : ¬ (0 < engine.config.maxDepth ∧ after.fieldState id = .clean) := by
      rintro ⟨hdepth, hclean⟩
      rcases hmet with hzero | hdirty
      · exact absurd hzero (Nat.ne_of_gt hdepth)
      · exact FieldState.noConfusion (hclean.symm.trans hdirty)
    refine ⟨⟨fun h => ?_, fun h => ?_⟩, fun _ => ⟨fault, hlimit, heq⟩, fun hdepth hclean => ?_⟩
    · exact .inr ⟨fault, hlimit, heq, h.symm.trans heq⟩
    · rcases h with ⟨hdepth, hclean, -⟩ | ⟨fault, -, heq, hdirect⟩
      · exact absurd ⟨hdepth, hclean⟩ hnot
      · exact heq.trans hdirect.symm
    · exact absurd ⟨hdepth, hclean⟩ hnot
  · have hthrough : through = r.bind Value.toResult := heq
    have hagree := bind_toResult_eq_iff hdirect
    refine ⟨⟨fun h => ?_, fun h => ?_⟩, fun h => ?_, fun _ _ => ⟨r, hr, heq, hdirect⟩⟩
    · have hsame := hthrough.symm.trans h
      exact .inl ⟨hdepth, hclean, (hagree.1 hsame).1, fun _ => ⟨r, hr, hsame⟩⟩
    · rcases h with ⟨-, -, hvalue, hcircle⟩ | ⟨fault, -, heq, hdirect⟩
      · refine hthrough.trans (hagree.2 ⟨hvalue, fun hcircular => ?_⟩)
        obtain ⟨r', hr', hsame⟩ := hcircle hcircular
        obtain rfl := Option.some.inj (hr.symm.trans hr')
        exact hsame
      · exact heq.trans hdirect.symm
    · rcases h with hzero | hdirty
      · exact absurd hzero (Nat.ne_of_gt hdepth)
      · exact FieldState.noConfusion (hclean.symm.trans hdirty)

/-- A chain of three fields. -/
def chain : Document where
  fields := [⟨"a", .other, .null, some "true", []⟩, ⟨"b", .other, .null, some "{a}", []⟩,
    ⟨"c", .other, .null, some "{b}", []⟩]
  distinct := by decide

set_option maxRecDepth 8192 in
/-- Under the standard limits both ways come to the value at the end of the chain. -/
theorem evaluate_mention_eq_value_chain :
    ((build .standard ⟨0, 0⟩ chain).evaluate (Expr.mention "c")).1 =
      ((build .standard ⟨0, 0⟩ chain).value "c").1 := by
  have hdirect : ((build .standard ⟨0, 0⟩ chain).value "c").1 = .ok (.boolean true) := by cbv
  have hclean : ((build .standard ⟨0, 0⟩ chain).evaluate (Expr.mention "c")).2.fieldState "c" =
      .clean := by cbv
  have hagree := (@evaluate_mention_eq_value_iff Document _ .standard ⟨0, 0⟩ chain (by decide) []
    "c" (by decide) (by cbv)).1
  refine hagree.2 (.inl ⟨by decide, hclean, fun fault hfault => ?_, ?_⟩)
  · have hvalue := hdirect.symm.trans hfault
    simp at hvalue
  · rintro ⟨fields, hfields⟩
    have hvalue := hdirect.symm.trans hfields
    simp at hvalue

set_option maxRecDepth 8192 in
/-- Where only one field may be computed inside another, only the direct way does. -/
theorem value_ne_evaluate_chain :
    ((build ⟨64, 1, .eager⟩ ⟨0, 0⟩ chain).value "c").1 = .ok (.boolean true) ∧
      ((build ⟨64, 1, .eager⟩ ⟨0, 0⟩ chain).evaluate (Expr.mention "c")).1 =
        .error (chainTooLong ⟨64, 1, .eager⟩ "b") := by
  constructor
  · cbv
  · cbv

end Formulary.Engine
