/-
  Engines that cannot be told apart.

  * `Session.Twin`, `Engine.Twin`: two sides remember the same results; how often
    these were looked up, and which formulas were read before, may differ;
  * `Session.twin_readField`: reading a field returns the same on both sides;
  * `Engine.Twin.perform`, `Engine.Twin.answers_eq`: so does every action, and every
    run.
-/
import Formulary.Proofs.Run

namespace Formulary

/-! ## Sessions -/

namespace Session

variable {δ : Type} [Host δ] {host : δ} {config : Config} {clock : Instant} {s t : Session}

/-- Two sessions remember the same results and have met the same limits, and what
they know of formulas is right. -/
structure Twin (config : Config) (s t : Session) : Prop where
  results : ∀ f, s.memo.results.find? f = t.memo.results.find? f
  limited : s.limited = t.limited
  formulas : s.formulas.Faithful config.maxDepth
  formulas' : t.formulas.Faithful config.maxDepth

/-- Two steps return the same, and leave twins. -/
def Twins {α : Type} (config : Config) (x y : α × Session) : Prop :=
  x.1 = y.1 ∧ Twin config x.2 y.2

theorem twin_lookUp (h : Twin config s t) (field : String) :
    (s.memo.lookUp field).1 = (t.memo.lookUp field).1 ∧
      Twin config { s with memo := (s.memo.lookUp field).2 }
        { t with memo := (t.memo.lookUp field).2 } := by
  obtain ⟨hs, hs'⟩ := s.memo.lookUp_results field
  obtain ⟨ht, ht'⟩ := t.memo.lookUp_results field
  refine ⟨by rw [hs, ht, h.results], fun f => ?_, h.limited, h.formulas, h.formulas'⟩
  dsimp only
  rw [hs', ht', h.results]

theorem twin_answerWith {read read' : String → Nat → Session → Result × Session}
    (hread : ∀ field depth s t, Twin config s t →
      Twins config (read field depth s) (read' field depth t))
    (path : Path) (depth : Nat) (h : Twin config s t) :
    Twins config (answerWith host read path depth s) (answerWith host read' path depth t) := by
  unfold answerWith
  cases Host.formula? host path.root with
  | some text =>
    obtain ⟨heq, htwin⟩ := hread path.root depth s t h
    exact ⟨congrArg (Except.bind · _) heq, htwin⟩
  | none =>
    cases Host.value? host path.root with
    | some v => exact ⟨rfl, h⟩
    | none => exact ⟨rfl, h⟩

theorem twin_remember (field : String) {r r' : Result × Session} (h : Twin config s t)
    (hr : Twins config r r') : Twin config (remember field s r) (remember field t r') := by
  obtain ⟨heq, htwin⟩ := hr
  refine ⟨fun f => ?_, ?_, htwin.formulas, htwin.formulas'⟩
  · rw [find?_remember, find?_remember, htwin.limited, heq, htwin.results f]
  · exact congrArg₂ (· || ·) htwin.limited h.limited

/-- What a formula comes to is the same on both sides if the answers are. -/
theorem twin_compute {answer answer' : Path → Nat → Session → Result × Session}
    (hanswer : ∀ path depth s t, Twin config s t →
      Twins config (answer path depth s) (answer' path depth t))
    (field text : String) (depth : Nat) (h : Twin config s t) :
    Twins config (compute config clock answer field text depth s)
      (compute config clock answer' field text depth t) := by
  obtain ⟨hparse, hformulas⟩ := h.formulas.parse field text
  obtain ⟨hparse', hformulas'⟩ := h.formulas'.parse field text
  have hinner : Twin config
      { s with formulas := (s.formulas.parse field text config.maxDepth).2, limited := false }
      { t with formulas := (t.formulas.parse field text config.maxDepth).2, limited := false } :=
    ⟨h.results, rfl, hformulas, hformulas'⟩
  rw [compute_eq, compute_eq, hparse, hparse']
  generalize Session.mk s.memo (s.formulas.parse field text config.maxDepth).2 false = inner,
    Session.mk t.memo (t.formulas.parse field text config.maxDepth).2 false = inner' at hinner
  suffices hout : Twins config (outcome config clock answer depth (Expr.ofText config.maxDepth text)
      inner) (outcome config clock answer' depth (Expr.ofText config.maxDepth text) inner') from
    ⟨hout.1, twin_remember field h hout⟩
  unfold outcome
  cases Expr.ofText config.maxDepth text with
  | error failure => exact ⟨rfl, hinner⟩
  | ok e =>
    obtain ⟨heq, htwin⟩ := Evaluation.run_related hanswer
      (e.eval (setting config clock) depth []) hinner
    dsimp only
    generalize (e.eval (setting config clock) depth []).run answer inner = r,
      (e.eval (setting config clock) depth []).run answer' inner' = r' at heq htwin
    obtain ⟨r, u⟩ := r
    obtain ⟨r', u'⟩ := r'
    obtain rfl : r = r' := heq
    cases r with
    | ok v => exact ⟨rfl, htwin⟩
    | error reason =>
      exact ⟨rfl, htwin.results, congrArg (· || _) htwin.limited, htwin.formulas, htwin.formulas'⟩

/-- Reading a field returns the same on both sides, by induction on the room that is
left for the chain. -/
theorem twin_readField (host : δ) (clock : Instant) (room : Nat) (chain : List String)
    (field : String) (depth : Nat) {s t : Session} (h : Twin config s t) :
    Twins config (readField host config clock room chain field depth s)
      (readField host config clock room chain field depth t) := by
  induction room generalizing chain field depth s t with
  | zero =>
    obtain ⟨heq, htwin⟩ := twin_lookUp h field
    unfold readField
    generalize s.memo.lookUp field = r, t.memo.lookUp field = r' at heq htwin
    obtain ⟨found, memo⟩ := r
    obtain ⟨found', memo'⟩ := r'
    obtain rfl : found = found' := heq
    cases found with
    | some r => exact ⟨rfl, htwin⟩
    | none =>
      dsimp only
      split
      · exact ⟨rfl, htwin⟩
      · exact ⟨rfl, htwin.results, rfl, htwin.formulas, htwin.formulas'⟩
  | succ room ih =>
    obtain ⟨heq, htwin⟩ := twin_lookUp h field
    unfold readField
    generalize s.memo.lookUp field = r, t.memo.lookUp field = r' at heq htwin
    obtain ⟨found, memo⟩ := r
    obtain ⟨found', memo'⟩ := r'
    obtain rfl : found = found' := heq
    cases found with
    | some r => exact ⟨rfl, htwin⟩
    | none =>
      dsimp only
      split
      · exact ⟨rfl, htwin⟩
      · cases Host.formula? host field with
        | none => exact ⟨rfl, htwin⟩
        | some text =>
          refine twin_compute (fun path depth s t hst => ?_) field text depth htwin
          exact twin_answerWith (fun f d s t => ih (chain ++ [field]) f d) path depth hst

theorem twin_answer (host : δ) (clock : Instant) (path : Path) (depth : Nat)
    (h : Twin config s t) :
    Twins config (answer host config clock path depth s) (answer host config clock path depth t) :=
  twin_answerWith (fun f d _ _ => twin_readField host clock _ [] f d) path depth h

end Session

/-! ## Engines -/

namespace Engine

variable {δ : Type} {engine engine' : Engine δ}

/-- Two engines over one host remember the same results, and what they know of
formulas is right. -/
structure Twin (engine engine' : Engine δ) : Prop where
  frame : ∃ memo formulas, engine' = { engine with memo, formulas }
  known : ∀ f, engine.known f = engine'.known f
  formulas : engine.formulas.Faithful engine.config.maxDepth
  formulas' : engine'.formulas.Faithful engine.config.maxDepth

/-- Two calls return the same, and leave twins. -/
def Twins {α : Type} (x y : α × Engine δ) : Prop :=
  x.1 = y.1 ∧ x.2.Twin y.2

/-- Two computations in order have come to the same. -/
structure Progress.Twin (p p' : Progress δ) : Prop where
  engine : p.engine.Twin p'.engine
  results : p.results = p'.results
  fresh : p.fresh = p'.fresh

namespace Twin

theorem host_eq (h : engine.Twin engine') : engine.host = engine'.host := by
  obtain ⟨memo, formulas, rfl⟩ := h.frame
  rfl

theorem graph_eq (h : engine.Twin engine') : engine.graph = engine'.graph := by
  obtain ⟨memo, formulas, rfl⟩ := h.frame
  rfl

/-- Both sides get another host, another graph, and formulas that are right. -/
theorem changed (h : engine.Twin engine') (host : δ) (graph : Graph) {formulas formulas' : Formulas}
    (hformulas : formulas.Faithful engine.config.maxDepth)
    (hformulas' : formulas'.Faithful engine.config.maxDepth) :
    Twin { engine with host, graph, formulas }
      { engine' with host, graph, formulas := formulas' } := by
  obtain ⟨memo, _, rfl⟩ := h.frame
  exact ⟨⟨_, _, rfl⟩, h.known, hformulas, hformulas'⟩

theorem session (h : engine.Twin engine') :
    Session.Twin engine.config engine.session engine'.session :=
  ⟨h.known, rfl, h.formulas, h.formulas'⟩

theorem resume {s t : Session} (h : engine.Twin engine') (hst : Session.Twin engine.config s t) :
    Twin (engine.resume s) (engine'.resume t) := by
  obtain ⟨memo, formulas, rfl⟩ := h.frame
  exact ⟨⟨_, _, rfl⟩, hst.results, hst.formulas, hst.formulas'⟩

theorem clear (h : engine.Twin engine') :
    Twin { engine with memo := engine.memo.clear } { engine' with memo := engine'.memo.clear } := by
  obtain ⟨memo, formulas, rfl⟩ := h.frame
  exact ⟨⟨_, _, rfl⟩, fun _ => rfl, h.formulas, h.formulas'⟩

/-! ## Evaluation -/

variable [Owner δ]

theorem read (h : engine.Twin engine') (field : String) :
    Twins (engine.read field) (engine'.read field) := by
  obtain ⟨memo, formulas, rfl⟩ := h.frame
  obtain ⟨heq, htwin⟩ := Session.twin_readField engine.host engine.clock
    engine.config.maxReferenceDepth [] field 0 h.session
  exact ⟨heq, h.resume htwin⟩

theorem evaluate (h : engine.Twin engine') (text : String) :
    Twins (engine.evaluate text) (engine'.evaluate text) := by
  obtain ⟨memo, formulas, rfl⟩ := h.frame
  unfold Engine.evaluate
  dsimp only
  cases Expr.ofText engine.config.maxDepth text with
  | error failure => exact ⟨rfl, h⟩
  | ok e =>
    obtain ⟨heq, htwin⟩ := Evaluation.run_related
      (fun path depth s t => Session.twin_answer engine.host engine.clock path depth)
      (e.eval (Session.setting engine.config engine.clock) 0 []) h.session
    exact ⟨congrArg Stop.settle heq, h.resume htwin⟩

/-! ## Computing in order -/

theorem isStale_eq (h : engine.Twin engine') : engine.isStale = engine'.isStale := by
  funext field
  rw [isStale, isStale, state_beq_dirty, state_beq_dirty, ← h.host_eq]
  exact congrArg (fun r => Option.isNone r && _) (h.known field)

theorem computeField (h : engine.Twin engine') (fault? : Option Fault) (field : String) :
    Twins (engine.computeField fault? field) (engine'.computeField fault? field) := by
  cases fault? with
  | none => exact h.read field
  | some fault =>
    obtain ⟨memo, formulas, rfl⟩ := h.frame
    refine ⟨rfl, ⟨_, _, rfl⟩, fun f => ?_, h.formulas, h.formulas'⟩
    refine (Memo.find?_store ..).trans (Eq.trans ?_ (Memo.find?_store ..).symm)
    rw [show engine.memo.results.find? f = memo.results.find? f from h.known f]

theorem advance {p p' : Progress δ} (h : p.Twin p') (targets : NameSet) (fault? : Option Fault)
    (field : String) :
    Progress.Twin (Engine.advance targets fault? p field)
      (Engine.advance targets fault? p' field) := by
  obtain ⟨heq, htwin⟩ := h.engine.computeField fault? field
  rw [advance_eq (Prod.eta (p.engine.computeField fault? field)).symm,
    advance_eq (Prod.eta (p'.engine.computeField fault? field)).symm]
  refine ⟨htwin, ?_, ?_⟩
  · rw [heq, h.results]
  · rw [h.engine.known, h.fresh]

theorem computeInOrder (h : engine.Twin engine') (targets : NameSet) :
    Progress.Twin (engine.computeInOrder targets) (engine'.computeInOrder targets) := by
  have hwithin : engine.withStalePrecedents targets = engine'.withStalePrecedents targets := by
    unfold withStalePrecedents
    rw [h.isStale_eq, h.graph_eq]
  unfold Engine.computeInOrder
  rw [hwithin, h.graph_eq]
  refine List.foldl_rel ⟨h, rfl, rfl⟩ fun group _ p p' hp => ?_
  unfold advanceGroup
  rw [hp.engine.graph_eq]
  exact List.foldl_rel hp fun field _ p p' hp => advance hp targets _ field

theorem push (h : engine.Twin engine') (results : Results) (field : String) :
    Twin (Engine.push results engine field) (Engine.push results engine' field) := by
  obtain ⟨memo, formulas, rfl⟩ := h.frame
  unfold Engine.push
  cases results.find? field with
  | none => exact h
  | some r => exact ⟨⟨_, _, rfl⟩, h.known, h.formulas, h.formulas'⟩

theorem recompute (h : engine.Twin engine') (fields : NameSet) :
    Twins (engine.recompute fields) (engine'.recompute fields) := by
  have hp := h.computeInOrder (engine.targetsOf fields)
  unfold Engine.recompute
  rw [← h.host_eq]
  refine ⟨hp.results, ?_⟩
  dsimp only
  rw [show NameSet.ofList _ = engine.targetsOf fields from rfl, ← hp.results, ← hp.fresh]
  exact List.foldl_rel hp.engine fun field _ e e' he => he.push _ field

theorem evaluateAll (h : engine.Twin engine') : Twins engine.evaluateAll engine'.evaluateAll := by
  obtain ⟨memo, formulas, rfl⟩ := h.frame
  exact h.clear.recompute engine.graph.fields

theorem value (h : engine.Twin engine') (field : String) :
    Twins (engine.value field) (engine'.value field) := by
  have hp := h.computeInOrder (NameSet.ofList [field])
  unfold Engine.value
  rw [h.host_eq]
  cases Host.formula? engine'.host field with
  | some text =>
    dsimp only
    rw [hp.results]
    cases (engine'.computeInOrder (NameSet.ofList [field])).results.find? field with
    | some r => exact ⟨rfl, hp.engine⟩
    | none => exact hp.engine.read field
  | none =>
    dsimp only
    cases Host.value? engine'.host field with
    | some v => exact ⟨rfl, h⟩
    | none => exact ⟨rfl, h⟩

/-! ## Changes -/

omit [Owner δ] in
theorem invalidate (h : engine.Twin engine') (seeds : List String) :
    Twins (engine.invalidate seeds) (engine'.invalidate seeds) := by
  obtain ⟨memo, formulas, rfl⟩ := h.frame
  obtain ⟨left, heq, hleft⟩ := invalidate_eq engine seeds
  obtain ⟨right, heq', hright⟩ := invalidate_eq { engine with memo, formulas } seeds
  rw [heq, heq']
  refine ⟨rfl, ⟨_, _, rfl⟩, fun f => ?_, h.formulas, h.formulas'⟩
  refine (hleft f).trans (Eq.trans ?_ (hright f).symm)
  rw [h.known f]

theorem react (h : engine.Twin engine') (field : String) :
    Twins (engine.react field) (engine'.react field) := by
  obtain ⟨-, htwin⟩ := h.invalidate [field]
  rw [react_eq, react_eq, ← h.graph_eq,
    show engine'.config = engine.config by obtain ⟨memo, formulas, rfl⟩ := h.frame; rfl]
  cases engine.config.policy with
  | eager => exact htwin.recompute _
  | whenRead => exact ⟨rfl, htwin⟩

theorem index (h : engine.Twin engine') (field : String) :
    Twin (engine.index field) (engine'.index field) := by
  obtain ⟨memo, formulas, rfl⟩ := h.frame
  unfold Engine.index
  dsimp only
  cases Host.formula? engine.host field with
  | none => exact ⟨⟨_, _, rfl⟩, h.known, h.formulas, h.formulas'⟩
  | some text =>
    obtain ⟨hparse, hformulas⟩ := h.formulas.parse field text
    obtain ⟨hparse', hformulas'⟩ := h.formulas'.parse field text
    dsimp only at hparse' hformulas' ⊢
    rw [hparse, hparse']
    exact ⟨⟨_, _, rfl⟩, h.known, hformulas, hformulas'⟩

theorem report (h : engine.Twin engine') (e : Edit) :
    Twins (engine.report e) (engine'.report e) := by
  rw [report_eq, report_eq]
  refine Twin.react ?_ e.field
  obtain ⟨memo, formulas, rfl⟩ := h.frame
  have hchanged := h.changed (Owner.edit engine.host e) engine.graph (h.formulas.erase e.field)
    (h.formulas'.erase e.field)
  cases e with
  | setFormula id formula? => exact hchanged.index id
  | add spec => exact hchanged.index spec.id
  | remove id =>
    exact hchanged.changed _ (engine.graph.remove id) hchanged.formulas hchanged.formulas'

/-! ## Runs -/

/-- An action returns the same on both sides, and leaves twins. -/
theorem perform (h : engine.Twin engine') (action : Action) :
    Twins (engine.perform action) (engine'.perform action) := by
  cases action with
  | update field v =>
    obtain ⟨memo, formulas, rfl⟩ := h.frame
    have hchanged := h.changed (Host.write engine.host field v) engine.graph h.formulas h.formulas'
    obtain ⟨heq, htwin⟩ := hchanged.react field
    exact ⟨congrArg Answer.results heq, htwin⟩
  | invalidate fields =>
    obtain ⟨heq, htwin⟩ := h.invalidate fields
    exact ⟨congrArg Answer.names heq, htwin⟩
  | recompute fields =>
    obtain ⟨heq, htwin⟩ := h.recompute fields
    exact ⟨congrArg Answer.results heq, htwin⟩
  | value field =>
    obtain ⟨heq, htwin⟩ := h.value field
    exact ⟨congrArg (Answer.value field) heq, htwin⟩
  | evaluateAll =>
    obtain ⟨heq, htwin⟩ := h.evaluateAll
    exact ⟨congrArg Answer.results heq, htwin⟩
  | evaluate text =>
    obtain ⟨heq, htwin⟩ := h.evaluate text
    exact ⟨congrArg Answer.expression heq, htwin⟩
  | edit e =>
    obtain ⟨heq, htwin⟩ := h.report e
    exact ⟨congrArg Answer.results heq, htwin⟩
  | tick clock =>
    obtain ⟨memo, formulas, rfl⟩ := h.frame
    exact ⟨rfl, ⟨_, _, rfl⟩, h.known, h.formulas, h.formulas'⟩

theorem performAll (h : engine.Twin engine') (actions : List Action) :
    Twin (engine.performAll actions) (engine'.performAll actions) :=
  List.foldl_rel h fun action _ _ _ h => (h.perform action).2

theorem answers_eq (h : engine.Twin engine') (actions : List Action) :
    engine.answers actions = engine'.answers actions := by
  induction actions generalizing engine engine' with
  | nil => rfl
  | cons action rest ih =>
    obtain ⟨heq, htwin⟩ := h.perform action
    rw [answers, answers, heq, ih htwin]

end Twin

end Engine
end Formulary
