/-
  Reading fields whose precedents are remembered.

  * `recalled`: the value of a reference, where results are only looked up;
  * `formulaResult`: the result of a text as a formula under such answers;
  * `alike_formulaResult`, `formulaResult_congr`: it depends only on the fields that
    the text refers to, and on how they look;
  * `Session.compute_ready`: a formula whose precedents are remembered has this
    result, and it is remembered;
  * `Engine.read_clean`, `Engine.read_ready`: reading a field of an engine.
-/
import Formulary.Proofs.InStep

namespace Formulary

variable {δ : Type} [Host δ]

/-- The value of a reference, where the result of a formula field is looked up. -/
def recalled (host : δ) (known : String → Option Result) (path : Path) : Result :=
  match Host.formula? host path.root with
  | some _ =>
    ((known path.root).getD (.error path.dangling)).bind
      (path.select (Host.columns host path.root))
  | none =>
    match Host.value? host path.root with
    | some v => path.select (Host.columns host path.root) v
    | none => .error path.dangling

/-- The result of a text as a formula, where references are looked up. -/
def formulaResult (host : δ) (setting : Setting) (known : String → Option Result)
    (text : String) : Result :=
  match Expr.ofText setting.limit text with
  | .error failure => .error failure.toFault
  | .ok e => Stop.settle ((e.eval setting 0 []).result (recalled host known))

/-! ## What a result depends on -/

/-- A field looks the same from two sides: it is declared alike, and its stored value, or
its result if it has a formula, is the same. -/
structure LooksSame (host host' : δ) (known known' : String → Option Result) (field : String) :
    Prop where
  declared : Host.Declared host host' field
  stored : Host.formula? host field = none → Host.value? host field = Host.value? host' field
  computed : (Host.formula? host field).isSome → known field = known' field

/-- A field looks alike from two sides: it is declared alike, and its stored value,
or its results if it has a formula, are alike. -/
structure LooksAlike (host host' : δ) (known known' : String → Option Result) (field : String) :
    Prop where
  declared : Host.Declared host host' field
  stored : Host.formula? host field = none → Host.value? host field = Host.value? host' field
  computed : (Host.formula? host field).isSome →
    ∃ r r', known field = some r ∧ known' field = some r' ∧ Alike r r'

section

variable {host host' : δ} {known known' : String → Option Result} {text : String}

theorem alike_recalled {path : Path} (h : LooksAlike host host' known known' path.root) :
    Alike (recalled host known path) (recalled host' known' path) := by
  unfold recalled
  rw [← h.declared.formula, ← h.declared.columns]
  cases hformula : Host.formula? host path.root with
  | some text =>
    obtain ⟨r, r', hr, hr', halike⟩ := h.computed (by rw [hformula]; rfl)
    simp only [hr, hr', Option.getD_some]
    exact halike.bind _
  | none =>
    rw [← h.stored hformula]
    exact .refl _

theorem mem_references {limit : Nat} {e : Expr} (he : Expr.ofText limit text = .ok e)
    {field : String} : field ∈ references limit text ↔ field ∈ e.references := by
  rw [references, he]

/-- A result depends on the fields that the text refers to, and alike fields make
alike results. -/
theorem alike_formulaResult {setting : Setting}
    (h : ∀ field ∈ references setting.limit text, LooksAlike host host' known known' field) :
    Alike (formulaResult host setting known text) (formulaResult host' setting known' text) := by
  unfold formulaResult
  cases he : Expr.ofText setting.limit text with
  | error failure => exact .refl _
  | ok e =>
    refine Evaluation.alike_result (Expr.eval_asks setting 0 e) fun path hpath => ?_
    exact alike_recalled (h path.root ((mem_references he).2 hpath))

theorem recalled_congr {path : Path} (h : LooksSame host host' known known' path.root) :
    recalled host known path = recalled host' known' path := by
  unfold recalled
  rw [← h.declared.formula, ← h.declared.columns]
  cases hformula : Host.formula? host path.root with
  | some text => rw [h.computed (by rw [hformula]; rfl)]
  | none => rw [← h.stored hformula]

/-- Fields that look the same make the same result. -/
theorem formulaResult_congr {setting : Setting}
    (h : ∀ field ∈ references setting.limit text, LooksSame host host' known known' field) :
    formulaResult host setting known text = formulaResult host' setting known' text := by
  unfold formulaResult
  cases he : Expr.ofText setting.limit text with
  | error failure => rfl
  | ok e =>
    refine congrArg Stop.settle (Evaluation.result_congr (Expr.eval_asks setting 0 e) ?_)
    intro path hpath
    exact recalled_congr (h path.root ((mem_references he).2 hpath))

/-- Where the host is the same, only the results of formula fields can differ. -/
theorem LooksSame.of_known {field : String}
    (h : (Host.formula? host field).isSome → known field = known' field) :
    LooksSame host host known known' field :=
  ⟨.refl host field, fun _ => rfl, h⟩

/-- A formula that does not call `now` has one result at all times. -/
theorem formulaResult_timeless {limit : Nat} (clock clock' : Instant)
    (h : ∀ e, Expr.ofText limit text = .ok e → e.Timeless) :
    formulaResult host ⟨limit, clock⟩ known text =
      formulaResult host ⟨limit, clock'⟩ known text := by
  unfold formulaResult
  cases he : Expr.ofText limit text with
  | error failure => rfl
  | ok e =>
    dsimp only
    rw [Expr.eval_timeless e (h e he)]

end

/-! ## Looking up -/

theorem Memo.lookUp_results (m : Memo) (field : String) :
    (m.lookUp field).1 = m.results.find? field ∧ (m.lookUp field).2.results = m.results := by
  unfold Memo.lookUp
  cases m.results.find? field with
  | some result => exact ⟨rfl, rfl⟩
  | none => exact ⟨rfl, rfl⟩

theorem Memo.lookUp_evaluations (m : Memo) (field : String) :
    (m.lookUp field).2.counts.evaluations = m.counts.evaluations := by
  unfold Memo.lookUp
  cases m.results.find? field with
  | some result => rfl
  | none => rfl

theorem Memo.find?_store (m : Memo) (field : String) (result : Result) (f : String) :
    (m.store field result).results.find? f =
      if field = f then some result else m.results.find? f :=
  NameMap.find?_insert ..

namespace Session

variable {host : δ} {config : Config} {clock : Instant}

/-- Two sessions remember the same and have met the same limits; how often results
were looked up may differ. -/
structure Same (s t : Session) : Prop where
  results : s.memo.results = t.memo.results
  formulas : s.formulas = t.formulas
  limited : s.limited = t.limited

theorem Same.refl (s : Session) : Same s s := ⟨rfl, rfl, rfl⟩

theorem Same.trans {s t u : Session} (h : Same s t) (h' : Same t u) : Same s u :=
  ⟨h.results.trans h'.results, h.formulas.trans h'.formulas, h.limited.trans h'.limited⟩

/-- A session comes from another by looking results up: nothing is evaluated. -/
structure LookedUp (s t : Session) : Prop extends Same s t where
  evaluations : s.memo.counts.evaluations = t.memo.counts.evaluations

theorem LookedUp.refl (s : Session) : LookedUp s s := ⟨.refl s, rfl⟩

theorem LookedUp.trans {s t u : Session} (h : LookedUp s t) (h' : LookedUp t u) : LookedUp s u :=
  ⟨h.toSame.trans h'.toSame, h.evaluations.trans h'.evaluations⟩

theorem readField_clean (host : δ) (config : Config) (clock : Instant) (room : Nat)
    (chain : List String) (depth : Nat) {field : String} {s : Session} {result : Result}
    (h : s.memo.results.find? field = some result) :
    (readField host config clock room chain field depth s).1 = result ∧
      LookedUp (readField host config clock room chain field depth s).2 s := by
  obtain ⟨hfound, hresults⟩ := s.memo.lookUp_results field
  have hevaluations := s.memo.lookUp_evaluations field
  rw [h] at hfound
  generalize hlookUp : s.memo.lookUp field = r at hfound hresults hevaluations
  obtain ⟨found, memo⟩ := r
  obtain rfl : found = some result := hfound
  unfold readField
  rw [hlookUp]
  exact ⟨rfl, ⟨hresults, rfl, rfl⟩, hevaluations⟩

/-- A reference to a field that is remembered, if it has a formula, is recalled. -/
theorem answer_ready (config : Config) (clock : Instant) (room : Nat) (chain : List String)
    {path : Path} (depth : Nat) {s : Session}
    (h : (Host.formula? host path.root).isSome → (s.memo.results.find? path.root).isSome) :
    (answerWith host (readField host config clock room chain) path depth s).1 =
        recalled host s.memo.results.find? path ∧
      LookedUp (answerWith host (readField host config clock room chain) path depth s).2 s := by
  unfold answerWith recalled
  cases hformula : Host.formula? host path.root with
  | none =>
    dsimp only
    cases Host.value? host path.root with
    | none => exact ⟨rfl, .refl s⟩
    | some v => exact ⟨rfl, .refl s⟩
  | some text =>
    obtain ⟨result, hresult⟩ := Option.isSome_iff_exists.1 (h (by rw [hformula]; rfl))
    obtain ⟨hread, hsame⟩ := readField_clean host config clock room chain depth hresult
    generalize readField host config clock room chain path.root depth s = r at hread hsame
    obtain ⟨r, s'⟩ := r
    obtain rfl : r = result := hread
    exact ⟨by rw [hresult]; rfl, hsame⟩

/-- What the evaluation of a formula comes to, and whether a limit had a part in it. -/
def outcome (config : Config) (clock : Instant) (answer : Path → Nat → Session → Result × Session)
    (depth : Nat) (parsed : Except ParseFailure Expr) (s : Session) : Result × Session :=
  match parsed with
  | .error failure => (.error failure.toFault, s)
  | .ok e =>
    match (e.eval (setting config clock) depth []).run answer s with
    | (.ok v, t) => (.ok v, t)
    | (.error reason, t) =>
      (.error reason.toFault, { t with limited := t.limited || (reason.isTooDeep && 0 < depth) })

/-- Remembers what the formula of a field came to, unless a limit had a part in it. -/
def remember (field : String) (s : Session) (r : Result × Session) : Session where
  memo := if r.2.limited then r.2.memo.evaluated else r.2.memo.evaluated.store field r.1
  formulas := r.2.formulas
  limited := r.2.limited || s.limited

theorem find?_remember (field : String) (s : Session) (r : Result × Session) (f : String) :
    (remember field s r).memo.results.find? f =
      if r.2.limited = false ∧ field = f then some r.1 else r.2.memo.results.find? f := by
  unfold remember
  cases r.2.limited with
  | true => rfl
  | false =>
    simp only [true_and]
    exact Memo.find?_store r.2.memo.evaluated field r.1 f

theorem compute_eq (answer : Path → Nat → Session → Result × Session) (field text : String)
    (depth : Nat) (s : Session) :
    let parse := s.formulas.parse field text config.maxDepth
    let r := outcome config clock answer depth parse.1
      { s with formulas := parse.2, limited := false }
    compute config clock answer field text depth s = (r.1, remember field s r) := rfl

/-- A formula whose precedents are remembered is computed from what they are, and
its result is remembered, at the top of an evaluation. -/
theorem compute_ready (host : δ) (clock : Instant) (room : Nat) (chain : List String)
    (field : String) {text : String} (s : Session) (hformulas : s.formulas.Faithful config.maxDepth)
    (hready : ∀ p ∈ references config.maxDepth text, (Host.formula? host p).isSome →
      (s.memo.results.find? p).isSome) :
    let step := compute config clock (answerWith host (readField host config clock room chain))
      field text 0 s
    let result := formulaResult host (setting config clock) s.memo.results.find? text
    step.1 = result ∧ step.2.memo.results = s.memo.results.insert field result ∧
      step.2.formulas.Faithful config.maxDepth ∧
      step.2.memo.counts.evaluations = s.memo.counts.evaluations + 1 := by
  intro step result
  obtain ⟨hparsed, hformulas'⟩ := hformulas.parse field text
  have hstep : step = _ := compute_eq (answerWith host (readField host config clock room chain))
    field text 0 s
  rw [hparsed] at hstep
  generalize (s.formulas.parse field text config.maxDepth).2 = formulas at hstep hformulas'
  suffices houtcome : ∀ r : Result × Session,
      r = outcome config clock (answerWith host (readField host config clock room chain)) 0
        (Expr.ofText config.maxDepth text) { s with formulas, limited := false } →
      r.1 = result ∧ LookedUp r.2 { s with formulas, limited := false } by
    generalize outcome config clock (answerWith host (readField host config clock room chain)) 0
      (Expr.ofText config.maxDepth text) { s with formulas, limited := false } = r
      at hstep houtcome
    obtain ⟨hresult, hsame⟩ := houtcome r rfl
    obtain ⟨r, t⟩ := r
    obtain rfl : r = result := hresult
    have hlimited : t.limited = false := hsame.limited
    rw [hstep, remember]
    simp only [hlimited, Bool.false_eq_true, if_false]
    exact ⟨trivial, congrArg (NameMap.insert · field _) hsame.results, hsame.formulas ▸ hformulas',
      congrArg (· + 1) hsame.evaluations⟩
  intro r hr
  have hresult : result = formulaResult host (setting config clock) s.memo.results.find? text := rfl
  unfold formulaResult at hresult
  unfold outcome at hr
  rw [show (setting config clock).limit = config.maxDepth from rfl] at hresult
  cases he : Expr.ofText config.maxDepth text with
  | error failure =>
    rw [he] at hr hresult
    rw [hr, hresult]
    exact ⟨rfl, .refl _⟩
  | ok e =>
    rw [he] at hr hresult
    dsimp only at hr hresult
    -- questions change nothing but the counts, so every answer is recalled from `s`
    obtain ⟨hrun, hsame⟩ := Evaluation.run_eq_result (recalled host s.memo.results.find?)
      (fun t => LookedUp t { s with formulas, limited := false })
      (Expr.eval_asks (setting config clock) 0 e)
      (fun path depth t hpath ht => by
        have hfind := hready path.root ((mem_references he).2 hpath)
        rw [show s.memo.results = t.memo.results from ht.results.symm] at hfind ⊢
        obtain ⟨hanswer, hsame⟩ := answer_ready config clock room chain depth hfind
        exact ⟨hanswer, hsame.trans ht⟩)
      (LookedUp.refl _)
    generalize (e.eval (setting config clock) 0 []).run
      (answerWith host (readField host config clock room chain))
      { s with formulas, limited := false } = run at hr hrun hsame
    obtain ⟨run, t⟩ := run
    dsimp only at hrun hsame
    rw [← hrun] at hresult
    cases run with
    | ok v =>
      rw [hr, hresult]
      exact ⟨rfl, hsame⟩
    | error reason =>
      rw [hr, hresult]
      refine ⟨rfl, ⟨hsame.results, hsame.formulas, ?_⟩, hsame.evaluations⟩
      simp only [Nat.lt_irrefl, decide_false, Bool.and_false, Bool.or_false]
      exact hsame.limited

end Session

/-! ## Reading a field of an engine -/

namespace Engine

/-- The result of a field, if it is remembered. -/
abbrev known (engine : Engine δ) (field : String) : Option Result :=
  engine.memo.results.find? field

/-- An engine is built with nothing remembered. -/
theorem known_build (config : Config) (clock : Instant) (host : δ) (field : String) :
    (build config clock host).known field = none := by
  obtain ⟨graph, formulas, heq, -⟩ := build_eq config clock host
  rw [heq]
  rfl

/-- The result of a text as a formula, as far as results are remembered. -/
def resultOf (engine : Engine δ) (text : String) : Result :=
  formulaResult engine.host (Session.setting engine.config engine.clock) engine.known text

variable {engine : Engine δ} {field text : String}

theorem read_clean {result : Result} (h : engine.known field = some result) :
    ∃ memo, engine.read field = (result, { engine with memo }) ∧
      memo.results = engine.memo.results ∧
      memo.counts.evaluations = engine.memo.counts.evaluations := by
  obtain ⟨hread, hsame⟩ := Session.readField_clean engine.host engine.config engine.clock
    engine.config.maxReferenceDepth [] 0 (show engine.session.memo.results.find? field = _ from h)
  unfold read
  generalize Session.readField engine.host engine.config engine.clock
    engine.config.maxReferenceDepth [] field 0 engine.session = r at hread hsame
  obtain ⟨r, s⟩ := r
  obtain rfl : r = result := hread
  obtain ⟨memo, formulas, limited⟩ := s
  obtain rfl : formulas = engine.formulas := hsame.formulas
  exact ⟨memo, rfl, hsame.results, hsame.evaluations⟩

/-- A field whose result is not remembered, but those of its precedents are, is
computed from these, and then it is remembered too. -/
theorem read_ready (hformulas : engine.formulas.Faithful engine.config.maxDepth)
    (hroom : 1 ≤ engine.config.maxReferenceDepth)
    (hformula : Host.formula? engine.host field = some text)
    (hdirty : engine.known field = none)
    (hready : ∀ p ∈ references engine.config.maxDepth text,
      (Host.formula? engine.host p).isSome → (engine.known p).isSome) :
    ∃ memo formulas,
      engine.read field = (engine.resultOf text, { engine with memo, formulas }) ∧
      memo.results = engine.memo.results.insert field (engine.resultOf text) ∧
      formulas.Faithful engine.config.maxDepth ∧
      memo.counts.evaluations = engine.memo.counts.evaluations + 1 := by
  obtain ⟨room, hroom⟩ := Nat.exists_eq_add_of_le' hroom
  obtain ⟨hfound, hresults⟩ := engine.memo.lookUp_results field
  have hevaluations := engine.memo.lookUp_evaluations field
  rw [show engine.memo.results.find? field = none from hdirty] at hfound
  unfold read
  rw [hroom, Session.readField]
  dsimp only [session]
  generalize engine.memo.lookUp field = r at hfound hresults hevaluations
  obtain ⟨found, memo⟩ := r
  obtain rfl : found = none := hfound
  simp only [List.not_mem_nil, if_false, hformula, List.nil_append]
  have hresults : memo.results = engine.memo.results := hresults
  obtain ⟨hresult, hmemo, hformulas', hcount⟩ := Session.compute_ready engine.host engine.clock room
    [field] field ⟨memo, engine.formulas, false⟩ hformulas (by rwa [hresults])
  generalize Session.compute engine.config engine.clock
    (Session.answerWith engine.host
      (Session.readField engine.host engine.config engine.clock room [field]))
    field text 0 ⟨memo, engine.formulas, false⟩ = r at hresult hmemo hformulas' hcount
  obtain ⟨r, s⟩ := r
  obtain ⟨memo', formulas', limited⟩ := s
  rw [hresults] at hresult hmemo
  exact ⟨memo', formulas', Prod.ext hresult rfl, hmemo, hformulas',
    hcount.trans (congrArg (· + 1) hevaluations)⟩

end Engine
end Formulary
