/-
  Incremental recomputation and computation from scratch.

  * `Engine.evaluateAll_complete`: computing everything has a result of every formula
    field;
  * `Engine.result_alike_rebuilt`: whatever a run returns for a field is what an engine
    newly built over the host returns for it.
-/
import Formulary.Proofs.Run
import Mathlib

namespace Formulary.Engine

variable {δ : Type} [Owner δ]

/-- To compute everything gives every formula field a result, from a sound engine that
looks alike to formulas. -/
theorem evaluateAll_complete {engine : Engine δ} (hinStep : engine.InStep)
    (hroom : 1 ≤ engine.config.maxReferenceDepth) :
    engine.evaluateAll.2.Sound ∧ engine.SameView engine.evaluateAll.2 ∧
      ∀ f, (Host.formula? engine.host f).isSome →
        ∃ r, engine.evaluateAll.1.find? f = some r ∧ engine.evaluateAll.2.known f = some r := by
  have hclear := hinStep.sound_clear
  have hview := recompute_view { engine with memo := engine.memo.clear } engine.graph.fields
  exact ⟨(hclear.recompute hroom _).1, ⟨hview.limit, hview.declared, hview.stored⟩,
    fun f hf => recompute_target hclear.inStep hroom (hinStep.mem_fields.2 hf) hf⟩

/-- What a sound engine remembers of a field is what an engine newly built over its
host makes of it. -/
theorem Sound.alike_rebuilt {engine : Engine δ} (h : engine.Sound)
    (htimeless : Timeless engine.config.maxDepth engine.host) {config : Config}
    (hlimit : config.maxDepth = engine.config.maxDepth) (hroom : 1 ≤ config.maxReferenceDepth)
    (clock : Instant) {f : String} {r : Result}
    (hformula : (Host.formula? engine.host f).isSome) (hr : engine.known f = some r) :
    ∃ r', (build config clock engine.host).evaluateAll.1.find? f = some r' ∧ Alike r r' := by
  have hbuild := inStep_build config clock engine.host
  have hconfig := config_build config clock engine.host
  have hhost := host_build config clock engine.host
  have hview : engine.SameView (build config clock engine.host) := by
    refine ⟨by rw [hconfig, hlimit], fun f => ?_, fun f _ => by rw [hhost]⟩
    rw [hhost]
    exact .refl _ f
  obtain ⟨hsound, hview', hall⟩ := evaluateAll_complete hbuild (by rwa [hconfig])
  obtain ⟨r', hresult, hknown⟩ := hall f (by rwa [hhost])
  exact ⟨r', hresult, h.settled.alike_known hsound.settled h.inStep hsound.inStep
    (hview.trans hview') (.inr htimeless) hformula hr hknown⟩

/-- **Main result.** Whatever an action of a run returns for a formula field is what
an engine newly built over the host as it then is returns for the field when it
computes everything, whichever policy and limit of references that engine has. -/
theorem result_alike_rebuilt {config config' : Config} {clock clock' : Instant} {host : δ}
    (hroom : 1 ≤ config.maxReferenceDepth) (hroom' : 1 ≤ config'.maxReferenceDepth)
    (hlimit : config'.maxDepth = config.maxDepth)
    (htimeless : Timeless config.maxDepth host) {actions : List Action} {action : Action}
    (hactions : ∀ a ∈ actions ++ [action], a.Schedules ∧ a.Timeless config.maxDepth)
    {f : String} {r : Result} :
    let step := ((build config clock host).performAll actions).perform action
    (Host.formula? step.2.host f).isSome → step.1.find? f = some r →
      ∃ r', (build config' clock' step.2.host).evaluateAll.1.find? f = some r' ∧ Alike r r' := by
  obtain ⟨hsound, hconfig, htimeless'⟩ := sound_reported clock hroom htimeless fun a ha =>
    hactions a (List.mem_append_left _ ha)
  obtain ⟨hschedules, haction⟩ := hactions action (List.mem_append_right _ List.mem_cons_self)
  generalize (build config clock host).performAll actions = before
    at hsound hconfig htimeless' ⊢
  subst hconfig
  intro step hformula hr
  obtain ⟨hsound', hknown⟩ := sound_perform hsound hroom htimeless' hschedules
  have hafter : step.2.config = before.config := (inStep_perform hsound.inStep action).2.1
  refine hsound'.alike_rebuilt ?_ (hlimit.trans (congrArg Config.maxDepth hafter.symm)) hroom'
    clock' hformula (hknown f r hr hformula)
  rw [hafter]
  exact timeless_perform hsound.inStep htimeless' haction

theorem timeless_document {limit : Nat} {doc : Document}
    (h : ∀ field ∈ doc.fields, ∀ text e, field.formula? = some text →
      Expr.ofText limit text = .ok e → e.Timeless) : Timeless limit doc := by
  intro f text e htext he
  obtain ⟨field, hfield, hformula⟩ := Option.bind_eq_some_iff.1 htext
  exact h field (Document.mem_of_field? hfield) text e hformula he

/-- Two fields, of which the first refers to the second. -/
def pair : Document where
  fields := [⟨"a", .other, .null, some "{b}", []⟩, ⟨"b", .other, .null, some "true", []⟩]
  distinct := by decide

theorem timeless_reference {text : String} {path : Path}
    (h : Expr.ofText 64 text = .ok (.reference path)) {e : Expr}
    (he : Expr.ofText 64 text = .ok e) : e.Timeless := by
  rw [h] at he
  obtain rfl := Except.ok.inj he
  rfl

theorem timeless_pair : Timeless 64 pair := by
  refine timeless_document fun field hfield text e htext he => ?_
  have hfields : field ∈ [⟨"a", .other, .null, some "{b}", []⟩,
      (⟨"b", .other, .null, some "true", []⟩ : Field)] := hfield
  rcases List.mem_cons.1 hfields with rfl | hfields
  · obtain rfl := Option.some.inj htext
    exact timeless_reference (show Expr.ofText 64 "{b}" = .ok (.reference ⟨"b", []⟩) by cbv) he
  · obtain rfl := List.mem_singleton.1 hfields
    obtain rfl := Option.some.inj htext
    rw [show Expr.ofText 64 "true" = .ok (.literal (.boolean true)) by cbv] at he
    obtain rfl := Except.ok.inj he
    rfl

/-- An edit of the second field that closes a circle. -/
def closing : Action := .edit (.setFormula "b" (some "{a}"))

theorem timeless_closing : closing.Timeless 64 := by
  intro text e htext he
  obtain rfl := Option.some.inj htext
  exact timeless_reference (show Expr.ofText 64 "{a}" = .ok (.reference ⟨"a", []⟩) by cbv) he

set_option maxRecDepth 8192 in
/-- Once the circle is closed, reading the first field tells of it, as does an engine
built anew. -/
theorem result_alike_rebuilt_pair :
    let step := ((build .standard ⟨0, 0⟩ pair).performAll [.evaluateAll, closing]).perform
      (.value "a")
    step.1.find? "a" = some (.error (.cycle ["a", "b", "a"])) ∧
      ∃ r', (build ⟨64, 1, .whenRead⟩ ⟨0, 0⟩ step.2.host).evaluateAll.1.find? "a" = some r' ∧
        Alike (.error (.cycle ["a", "b", "a"])) r' := by
  have hactions : ∀ a ∈ [.evaluateAll, closing] ++ [.value "a"],
      a.Schedules ∧ a.Timeless 64 := by
    intro a ha
    simp only [List.cons_append, List.nil_append, List.mem_cons, List.not_mem_nil, or_false] at ha
    rcases ha with rfl | rfl | rfl
    · exact ⟨trivial, trivial⟩
    · exact ⟨trivial, timeless_closing⟩
    · exact ⟨trivial, trivial⟩
  have hrebuilt := @result_alike_rebuilt Document _ .standard ⟨64, 1, .whenRead⟩ ⟨0, 0⟩ ⟨0, 0⟩ pair
    (by decide) (by decide) rfl timeless_pair [.evaluateAll, closing] (.value "a") hactions
    "a" (.error (.cycle ["a", "b", "a"]))
  have hresult : (((build .standard ⟨0, 0⟩ pair).performAll [.evaluateAll, closing]).perform
      (.value "a")).1.find? "a" = some (.error (.cycle ["a", "b", "a"])) := by cbv
  have hformula : (Host.formula? (((build .standard ⟨0, 0⟩ pair).performAll
      [.evaluateAll, closing]).perform (.value "a")).2.host "a").isSome := by cbv
  exact ⟨hresult, hrebuilt hformula hresult⟩

end Formulary.Engine
