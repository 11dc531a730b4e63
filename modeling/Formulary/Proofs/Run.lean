/-
  Runs: the calls of an engine one after the other.

  * `Action`, `Answer`: a call, or an edit of the host that is reported at once, and
    what it returns;
  * `Engine.perform`, `Engine.performAll`, `Engine.answers`: one action, and a run of
    them with its answers;
  * `Engine.Follows`: a call leaves the formulas of the host and stays in step;
  * `Engine.inStep_run`: every run stays in step;
  * `Engine.sound_run`: a run without evaluations of expressions stays sound.
-/
import Formulary.Proofs.Operations
import Formulary.Proofs.Sessions

namespace Formulary

/-- A call of an engine, an edit of its host together with its report, or the passing
of time. -/
inductive Action where
  | update (field : String) (v : Value)
  | invalidate (fields : List String)
  | recompute (fields : NameSet)
  | value (field : String)
  | evaluateAll
  | evaluate (text : String)
  | edit (e : Edit)
  | tick (clock : Instant)

/-- What an action returns. -/
inductive Answer where
  | results (results : Results)
  /-- The result of one field. -/
  | value (field : String) (result : Result)
  /-- The result of an expression. -/
  | expression (result : Result)
  | names (names : NameSet)
  | nothing

/-- The result that an answer holds for a field. -/
def Answer.find? : Answer → String → Option Result
  | .results found, field => found.find? field
  | .value read result, field => if read = field then some result else none
  | _, _ => none

/-- An action does not evaluate an expression of its own. -/
def Action.Schedules : Action → Prop
  | evaluate _ => False
  | _ => True

/-- The formula that an edit brings does not call `now`. -/
def Action.Timeless (limit : Nat) : Action → Prop
  | edit e => ∀ text expr, e.formula? = some text → Expr.ofText limit text = .ok expr →
    expr.Timeless
  | _ => True

namespace Engine

variable {δ : Type} [Owner δ]

/-- The report of an edit: the host changed, and the engine is told of which field. -/
def report (engine : Engine δ) (e : Edit) : Results × Engine δ :=
  let engine := { engine with host := Owner.edit engine.host e }
  match e with
  | .remove id => engine.fieldRemoved id
  | _ => engine.formulaChanged e.field

/-- One action, with its answer. -/
def perform (engine : Engine δ) : Action → Answer × Engine δ
  | .update field v => let (results, engine) := engine.update field v; (.results results, engine)
  | .invalidate fields => let (names, engine) := engine.invalidate fields; (.names names, engine)
  | .recompute fields => let (results, engine) := engine.recompute fields; (.results results, engine)
  | .value field => let (result, engine) := engine.value field; (.value field result, engine)
  | .evaluateAll => let (results, engine) := engine.evaluateAll; (.results results, engine)
  | .evaluate text => let (result, engine) := engine.evaluate text; (.expression result, engine)
  | .edit e => let (results, engine) := engine.report e; (.results results, engine)
  | .tick clock => (.nothing, { engine with clock })

/-- The engine after some actions. -/
def performAll (engine : Engine δ) (actions : List Action) : Engine δ :=
  actions.foldl (fun engine action => (engine.perform action).2) engine

/-- What some actions return, one after the other. -/
def answers (engine : Engine δ) : List Action → List Answer
  | [] => []
  | action :: rest => (engine.perform action).1 :: (engine.perform action).2.answers rest

/-! ## In step -/

/-- A call keeps an engine in step, and the limits, the graph and the formulas as they
are. -/
structure Follows (engine engine' : Engine δ) : Prop where
  inStep : engine'.InStep
  config : engine'.config = engine.config
  graph : engine'.graph = engine.graph
  formula : ∀ f, Host.formula? engine'.host f = Host.formula? engine.host f

namespace Follows

variable {engine engine' engine'' : Engine δ}

theorem refl (h : engine.InStep) : Follows engine engine := ⟨h, rfl, rfl, fun _ => rfl⟩

theorem trans (h : Follows engine engine') (h' : Follows engine' engine'') :
    Follows engine engine'' :=
  ⟨h'.inStep, h'.config.trans h.config, h'.graph.trans h.graph,
    fun f => (h'.formula f).trans (h.formula f)⟩

theorem remember (h : engine.InStep) {memo : Memo} {formulas : Formulas}
    (hformulas : formulas.Faithful engine.config.maxDepth) :
    Follows engine { engine with memo, formulas } :=
  ⟨⟨h.mirrored, h.precedents, hformulas⟩, rfl, rfl, fun _ => rfl⟩

theorem read (h : engine.InStep) (field : String) : Follows engine (engine.read field).2 :=
  remember h ((Session.grown_readField _ [] field 0 engine.session).formulas h.formulas)

theorem computeField (h : engine.InStep) (fault? : Option Fault) (field : String) :
    Follows engine (engine.computeField fault? field).2 := by
  cases fault? with
  | none => exact read h field
  | some fault => exact remember h h.formulas

theorem computeInOrder (h : engine.InStep) (targets : NameSet) :
    Follows engine (engine.computeInOrder targets).engine := by
  obtain ⟨-, -, hfollows⟩ := computeInOrder_induct engine targets
    (motive := fun _ p => Follows engine p.engine) (refl h) fun _ p fault? field _ hp => by
      rw [advance_eq (show p.engine.computeField fault? field = (_, _) from rfl)]
      exact hp.trans (Follows.computeField hp.inStep fault? field)
  exact hfollows

theorem push (h : engine.InStep) (results : Results) (field : String) :
    Follows engine (Engine.push results engine field) := by
  unfold Engine.push
  cases results.find? field with
  | none => exact refl h
  | some r =>
    have hdeclared := Owner.declared_push engine.host field
      (Value.shown (Host.kind engine.host field) r)
    exact ⟨⟨h.mirrored, fun f => (hdeclared f).formula ▸ h.precedents f, h.formulas⟩, rfl, rfl,
      fun f => (hdeclared f).formula⟩

theorem recompute (h : engine.InStep) (fields : NameSet) :
    Follows engine (engine.recompute fields).2 := by
  have hpush : ∀ results (fresh : List String) (engine : Engine δ), engine.InStep →
      Follows engine (fresh.foldl (Engine.push results) engine) := by
    intro results fresh
    induction fresh with
    | nil => exact fun engine h => refl h
    | cons field rest ih =>
      exact fun engine h => (push h results field).trans (ih _ (push h results field).inStep)
  have hcompute := computeInOrder h (engine.targetsOf fields)
  exact hcompute.trans (hpush _ _ _ hcompute.inStep)

theorem evaluateAll (h : engine.InStep) : Follows engine engine.evaluateAll.2 :=
  have hclear : Follows engine { engine with memo := engine.memo.clear } := remember h h.formulas
  hclear.trans (recompute hclear.inStep _)

theorem value (h : engine.InStep) (field : String) : Follows engine (engine.value field).2 := by
  unfold Engine.value
  cases Host.formula? engine.host field with
  | none => cases Host.value? engine.host field <;> exact refl h
  | some text =>
    have hp := computeInOrder h (NameSet.ofList [field])
    dsimp only
    cases (engine.computeInOrder (NameSet.ofList [field])).results.find? field with
    | some r => exact hp
    | none => exact hp.trans (read hp.inStep field)

theorem evaluate (h : engine.InStep) (text : String) :
    Follows engine (engine.evaluate text).2 := by
  obtain ⟨s, heq, hgrown⟩ := evaluate_eq engine text
  rw [heq]
  exact remember h (hgrown.formulas h.formulas)

theorem invalidate (h : engine.InStep) (seeds : List String) :
    Follows engine (engine.invalidate seeds).2 :=
  remember h h.formulas

theorem react (h : engine.InStep) (field : String) : Follows engine (engine.react field).2 := by
  rw [react_eq]
  have hforgot := invalidate h [field]
  cases engine.config.policy with
  | eager => exact hforgot.trans (recompute hforgot.inStep _)
  | whenRead => exact hforgot

end Follows

/-- An engine whose host was edited, before it forgets what depends on the edit. -/
def edited (engine : Engine δ) (e : Edit) : Engine δ :=
  let engine := { engine with
    host := Owner.edit engine.host e
    formulas := NameMap.erase engine.formulas e.field }
  match e with
  | .remove id => { engine with graph := engine.graph.remove id }
  | _ => engine.index e.field

theorem report_eq (engine : Engine δ) (e : Edit) :
    engine.report e = (engine.edited e).react e.field := by
  cases e <;> rfl

theorem changed_edited {engine : Engine δ} (h : engine.InStep) (e : Edit) :
    Changed [e.field] engine (engine.edited e) := by
  cases e with
  | remove id => exact changed_remove h id
  | setFormula id formula? => exact changed_formula h (.setFormula id formula?)
  | add spec => exact changed_formula h (.add spec)

theorem host_edited (engine : Engine δ) (e : Edit) :
    (engine.edited e).host = Owner.edit engine.host e := by
  have hindex (engine : Engine δ) (field : String) : (engine.index field).host = engine.host := by
    unfold index
    cases Host.formula? engine.host field <;> rfl
  cases e with
  | remove id => rfl
  | setFormula id formula? => exact hindex _ _
  | add spec => exact hindex _ _

section

variable {engine : Engine δ} {action : Action}

/-- Every action but an edit leaves the graph and the formulas as they are; an edit leaves
those of the engine that was edited. -/
theorem follows_perform (h : engine.InStep) (action : Action) :
    Follows engine (engine.perform action).2 ∨
      ∃ e, action = .edit e ∧ Follows (engine.edited e) (engine.perform action).2 := by
  cases action with
  | update field v =>
    have hchanged := inStep_write h field v
    have hf := Follows.react hchanged.inStep field
    refine .inl ⟨hf.inStep, hf.config, hf.graph, fun f => (hf.formula f).trans ?_⟩
    exact (Owner.declared_write engine.host field v f).formula
  | invalidate fields => exact .inl (.invalidate h fields)
  | recompute fields => exact .inl (.recompute h fields)
  | value field => exact .inl (.value h field)
  | evaluateAll => exact .inl (.evaluateAll h)
  | evaluate text => exact .inl (.evaluate h text)
  | edit e =>
    have hf := Follows.react (changed_edited h e).inStep e.field
    rw [← report_eq] at hf
    exact .inr ⟨e, rfl, hf⟩
  | tick clock => exact .inl ⟨h.with_clock clock, rfl, rfl, fun _ => rfl⟩

/-- An action keeps an engine in step, and the limits as they are; only an edit
changes a formula, and only to the one that it brings. -/
theorem inStep_perform (h : engine.InStep) (action : Action) :
    (engine.perform action).2.InStep ∧ (engine.perform action).2.config = engine.config ∧
      ∀ f, Host.formula? (engine.perform action).2.host f = Host.formula? engine.host f ∨
        ∃ e, action = .edit e ∧
          Host.formula? (engine.perform action).2.host f = e.formula? := by
  rcases follows_perform h action with hf | ⟨e, rfl, hf⟩
  · exact ⟨hf.inStep, hf.config, fun f => .inl (hf.formula f)⟩
  · refine ⟨hf.inStep, hf.config.trans (changed_edited h e).config, fun f => ?_⟩
    have hformula := hf.formula f
    rw [host_edited] at hformula
    by_cases hfield : f = e.field
    · rw [hfield] at hformula ⊢
      exact (Owner.formula?_edit engine.host e).imp hformula.trans fun he =>
        ⟨e, rfl, hformula.trans he⟩
    · exact .inl (hformula.trans (Owner.declared_edit engine.host e f hfield).formula)

theorem timeless_perform (h : engine.InStep)
    (htimeless : Timeless engine.config.maxDepth engine.host)
    (haction : action.Timeless engine.config.maxDepth) :
    Timeless engine.config.maxDepth (engine.perform action).2.host := by
  intro f text e htext he
  rcases (inStep_perform h action).2.2 f with hsame | ⟨edit, rfl, hedit⟩
  · exact htimeless f text e (hsame.symm.trans htext) he
  · exact haction text e (hedit.symm.trans htext) he

/-- An action that schedules what it computes keeps an engine sound, and what it
returns for a field is remembered afterwards. -/
theorem sound_perform (h : engine.Sound) (hroom : 1 ≤ engine.config.maxReferenceDepth)
    (htimeless : Timeless engine.config.maxDepth engine.host) (haction : action.Schedules) :
    (engine.perform action).2.Sound ∧ ∀ f r, (engine.perform action).1.find? f = some r →
      (Host.formula? (engine.perform action).2.host f).isSome →
      (engine.perform action).2.known f = some r := by
  cases action with
  | update field v =>
    obtain ⟨hsound, hresults⟩ := h.react hroom (inStep_write h.inStep field v)
    exact ⟨hsound, fun f r hr _ => hresults f r hr⟩
  | invalidate fields =>
    exact ⟨h.invalidate (.refl h.inStep fields), fun f r hr =>
      absurd hr (by simp [perform, Answer.find?])⟩
  | recompute fields =>
    obtain ⟨hsound, hresults, -⟩ := h.recompute hroom fields
    exact ⟨hsound, fun f r hr _ => hresults f r hr⟩
  | value field =>
    obtain ⟨hsound, hresult⟩ := h.value hroom field
    refine ⟨hsound, fun f r hr hformula => ?_⟩
    replace hr : (if field = f then some (engine.value field).1 else none) = some r := hr
    split at hr
    next he =>
      subst he
      rw [← Option.some.inj hr]
      refine hresult ?_
      rwa [← (Follows.value h.inStep field).formula field]
    next => exact absurd hr (by simp)
  | evaluateAll =>
    obtain ⟨hsound, hresults, -⟩ := h.inStep.sound_clear.recompute hroom engine.graph.fields
    exact ⟨hsound, fun f r hr _ => hresults f r hr⟩
  | evaluate text => exact haction.elim
  | edit e =>
    obtain ⟨hsound, hresults⟩ := h.react hroom (changed_edited h.inStep e)
    rw [← report_eq] at hsound hresults
    exact ⟨hsound, fun f r hr _ => hresults f r hr⟩
  | tick clock =>
    refine ⟨⟨h.inStep.with_clock clock, h.settled.tick htimeless clock⟩, fun f r hr => ?_⟩
    exact absurd hr (by simp [perform, Answer.find?])

end

/-! ## Runs -/

/-- Every run of an engine that is in step stays in step, and keeps the limits. -/
theorem inStep_run {engine : Engine δ} (h : engine.InStep) (actions : List Action) :
    (engine.performAll actions).InStep ∧
      (engine.performAll actions).config = engine.config := by
  induction actions generalizing engine with
  | nil => exact ⟨h, rfl⟩
  | cons action rest ih =>
    obtain ⟨hstep, hconfig, -⟩ := inStep_perform h action
    obtain ⟨hrun, hconfig'⟩ := ih hstep
    exact ⟨hrun, hconfig'.trans hconfig⟩

/-- Every run of a sound engine that evaluates no expressions stays sound. -/
theorem sound_run {engine : Engine δ} (h : engine.Sound)
    (hroom : 1 ≤ engine.config.maxReferenceDepth)
    (htimeless : Timeless engine.config.maxDepth engine.host) (actions : List Action)
    (hactions : ∀ action ∈ actions,
      action.Schedules ∧ action.Timeless engine.config.maxDepth) :
    (engine.performAll actions).Sound ∧
      Timeless engine.config.maxDepth (engine.performAll actions).host := by
  induction actions generalizing engine with
  | nil => exact ⟨h, htimeless⟩
  | cons action rest ih =>
    obtain ⟨hschedules, hformula⟩ := hactions action List.mem_cons_self
    obtain ⟨-, hconfig, -⟩ := inStep_perform h.inStep action
    have hsound := (sound_perform h hroom htimeless hschedules).1
    have htimeless' := timeless_perform h.inStep htimeless hformula
    rw [← hconfig] at htimeless' hroom hactions ⊢
    exact ih hsound hroom htimeless' fun a ha => hactions a (List.mem_cons_of_mem _ ha)

theorem sound_build (config : Config) (clock : Instant) (host : δ) :
    (build config clock host).Sound :=
  ⟨inStep_build config clock host, settled_of_empty (known_build config clock host)⟩

/-- Every run of a newly built engine that evaluates no expressions stays sound. -/
theorem sound_reported {config : Config} {host : δ} (clock : Instant)
    (hroom : 1 ≤ config.maxReferenceDepth) (htimeless : Timeless config.maxDepth host)
    {actions : List Action}
    (hactions : ∀ a ∈ actions, a.Schedules ∧ a.Timeless config.maxDepth) :
    ((build config clock host).performAll actions).Sound ∧
      ((build config clock host).performAll actions).config = config ∧
      Timeless config.maxDepth ((build config clock host).performAll actions).host := by
  have hbuild := sound_build config clock host
  have hconfig := config_build config clock host
  have hhost := host_build config clock host
  generalize build config clock host = engine at hbuild hconfig hhost ⊢
  subst hconfig hhost
  obtain ⟨hsound, htimeless'⟩ := sound_run hbuild hroom htimeless actions hactions
  exact ⟨hsound, (inStep_run hbuild.inStep actions).2, htimeless'⟩

end Engine
end Formulary
