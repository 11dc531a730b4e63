/-
  Computations in order read only what is remembered.

  Beside its targets, a computation in order takes in the stale fields that these refer to.  A
  formula that is computed in its turn then finds all its precedents remembered: they were so at
  the start, or they had their turn before.  So no field is computed while another one is.

  * `Evaluation.asked`: the questions of a run, each with the state in which it is asked;
  * `Resolver.quiet_of_runs`: a run that asks only for what is remembered computes nothing;
  * `Engine.Unnested`: a field that is read has no other one read inside it;
  * `Engine.isLeast_withStalePrecedents`: what is computed for some targets;
  * `Engine.AtTurn`, `Engine.AtTurn.induct`: the states of a computation in order, at the turns of
    fields, and what holds in all of them;
  * `Engine.performAll_unnested`: after any run, no field that is read in its turn has another one
    read inside it.
-/
import Formulary.Proofs.InProgress
import Formulary.Proofs.Run

namespace Formulary

/-! ## Questions and states -/

/-- A question, and the state in which it is asked. -/
structure Asked (σ : Type) where
  path : Path
  depth : Nat
  state : σ

namespace Evaluation

variable {α σ : Type} {kind : Path → Prop} {x : Evaluation α}
  {answer : Path → Nat → σ → Result × σ} {s : σ}

/-- A source of answers that writes down what it is asked, and its state then. -/
def observing (answer : Path → Nat → σ → Result × σ) (path : Path) (depth : Nat)
    (s : σ × List (Asked σ)) : Result × σ × List (Asked σ) :=
  let (result, s') := answer path depth s.1
  (result, s', s.2 ++ [⟨path, depth, s.1⟩])

/-- The questions of a run, in order, each with the state in which it is asked. -/
def asked (answer : Path → Nat → σ → Result × σ) (x : Evaluation α) (s : σ) : List (Asked σ) :=
  (x.run (observing answer) (s, [])).2.2

/-- Every question is of the kind that is asked for, and what all answers keep holds when it is
asked. -/
theorem Asks.asked_keeps (hx : x.Asks kind) (kept : σ → Prop)
    (hanswer : ∀ path depth s, kind path → kept s → kept (answer path depth s).2) (hs : kept s) :
    ∀ q ∈ x.asked answer s, kind q.path ∧ kept q.state := by
  let related (r r' : σ × List (Asked σ)) : Prop :=
    r = r' ∧ kept r.1 ∧ ∀ q ∈ r.2, kind q.path ∧ kept q.state
  have hstep : ∀ path depth r r', kind path → related r r' →
      (observing answer path depth r).1 = (observing answer path depth r').1 ∧
        related (observing answer path depth r).2 (observing answer path depth r').2 := by
    rintro path depth r _ hpath ⟨rfl, hr, hlog⟩
    refine ⟨rfl, rfl, hanswer path depth r.1 hpath hr, fun q hq => ?_⟩
    rcases List.mem_append.1 hq with hq | hq
    · exact hlog q hq
    · rw [List.mem_singleton.1 hq]
      exact ⟨hpath, hr⟩
  have hstart : related (s, []) (s, []) := ⟨rfl, hs, fun _ hq => absurd hq List.not_mem_nil⟩
  exact (hx.run_related hstep hstart).2.2.2

end Evaluation

/-! ## Readings of remembered fields -/

namespace Resolver

variable {δ : Type} [Host δ] {host : δ} {config : Config} {clock : Instant} {s t u : Resolver}

/-- From one state to the other nothing was put in progress, and no result was added. -/
structure Quiet (s t : Resolver) : Prop where
  inProgress : t.inProgress = s.inProgress
  history : t.history = s.history
  results : t.session.memo.results = s.session.memo.results

theorem Quiet.refl (s : Resolver) : Quiet s s := ⟨rfl, rfl, rfl⟩

theorem Quiet.trans (h : Quiet s t) (h' : Quiet t u) : Quiet s u :=
  ⟨h'.inProgress.trans h.inProgress, h'.history.trans h.history, h'.results.trans h.results⟩

/-- The field of a path is remembered, if it has a formula. -/
def Recalls (host : δ) (results : NameMap Result) (path : Path) : Prop :=
  (Host.formula? host path.root).isSome → (results.find? path.root).isSome

theorem quiet_of_reads {field : String} {depth : Nat} {r : Result}
    (hfield : (s.session.memo.results.find? field).isSome)
    (h : Reads host config clock field depth s r t) : Quiet s t := by
  obtain ⟨hfound, hresults⟩ := s.session.memo.lookUp_results field
  rw [reads_iff] at h
  generalize s.session.memo.lookUp field = found at h hfound hresults
  obtain ⟨result?, memo⟩ := found
  obtain rfl : result? = _ := hfound
  obtain ⟨result, hresult⟩ := Option.isSome_iff_exists.1 hfield
  rw [hresult] at h
  obtain ⟨-, rfl⟩ := h
  exact ⟨rfl, rfl, hresults⟩

theorem quiet_of_answers {path : Path} {depth : Nat} {r : Result}
    (hpath : Recalls host s.session.memo.results path)
    (h : Answers host config clock path depth s r t) : Quiet s t := by
  cases h with
  | computed hformula hreads => exact quiet_of_reads (hpath (by rw [hformula]; rfl)) hreads
  | stored _ _ => exact .refl s
  | dangling _ _ => exact .refl s

/-- A run that asks only for what is remembered computes nothing. -/
theorem quiet_of_runs {kind : Path → Prop} {x : Evaluation Value} {r : Except Stop Value}
    (hx : x.Asks kind) (hkind : ∀ path, kind path → Recalls host s.session.memo.results path)
    (h : Runs host config clock x s r t) : Quiet s t := by
  induction hx generalizing s with
  | done v =>
    cases h
    exact .refl _
  | stop reason =>
    cases h
    exact .refl _
  | ask hpath depth _ ih =>
    cases h with
    | answered ha hr =>
      have hquiet := quiet_of_answers (hkind _ hpath) ha
      exact hquiet.trans (ih _ (fun path hk => hquiet.results ▸ hkind path hk) hr)
    | refused ha => exact quiet_of_answers (hkind _ hpath) ha

theorem quiet_of_computes {kind : Path → Prop} {parsed : Except ParseFailure Expr} {depth : Nat}
    {r : Result} (hkind : ∀ path, kind path → Recalls host s.session.memo.results path)
    (hasks : ∀ e, parsed = .ok e → (e.eval (Session.setting config clock) depth []).Asks kind)
    (h : Computes host config clock parsed depth s r t) : Quiet s t := by
  cases h with
  | unreadable => exact .refl _
  | value hr => exact quiet_of_runs (hasks _ rfl) hkind hr
  | stopped hr =>
    have hquiet := quiet_of_runs (hasks _ rfl) hkind hr
    exact ⟨hquiet.inProgress, hquiet.history, hquiet.results⟩

end Resolver

namespace Engine

section

variable {δ : Type} [Host δ] {engine : Engine δ} {targets : NameSet} {field text : String}

/-! ## One reading -/

/-- The state in which the formula of a field is evaluated that is read with nothing else in
progress. -/
def entered (engine : Engine δ) (field text : String) : Resolver :=
  Resolver.push { engine.resolver with
    session := ⟨(engine.memo.lookUp field).2,
      (engine.formulas.parse field text engine.config.maxDepth).2, false⟩ } field

/-- The questions of the formula of a field that is read, each with what is remembered then.  A
field that is remembered asks nothing. -/
def asked (engine : Engine δ) (field : String) : List (Asked Session) :=
  match engine.known field, Host.formula? engine.host field with
  | none, some text =>
    match (engine.formulas.parse field text engine.config.maxDepth).1 with
    | .ok e =>
      (e.eval (Session.setting engine.config engine.clock) 0 []).asked
        (Resolver.answer engine.host engine.config engine.clock (engine.entered field text))
        (engine.entered field text).session
    | .error _ => []
  | _, _ => []

/-- To read a field that is not remembered is to evaluate its formula in that state. -/
theorem reads_dirty_iff (hroom : 1 ≤ engine.config.maxReferenceDepth)
    (hdirty : engine.known field = none) {r : Result} {t : Resolver} :
    Resolver.Reads engine.host engine.config engine.clock field 0 engine.resolver r t ↔
      match Host.formula? engine.host field with
      | none => r = .error (.reference field) ∧
          t = { engine.resolver with session.memo := (engine.memo.lookUp field).2 }
      | some text => ∃ u, Resolver.Computes engine.host engine.config engine.clock
            (engine.formulas.parse field text engine.config.maxDepth).1 0
            (engine.entered field text) r u ∧
          t = { u.pop with session := Session.remember field engine.session (r, u.session) } := by
  have hlookUp : engine.resolver.session.memo.lookUp field =
      (none, (engine.memo.lookUp field).2) :=
    Prod.ext ((engine.memo.lookUp_results field).1.trans hdirty) rfl
  have hnot : field ∉ engine.resolver.inProgress := List.not_mem_nil
  have hfree : ¬ engine.config.maxReferenceDepth ≤ engine.resolver.inProgress.length :=
    Nat.not_le.2 hroom
  rw [Resolver.reads_iff, hlookUp]
  dsimp only
  rw [if_neg hnot, if_neg hfree]
  cases Host.formula? engine.host field <;> rfl

/-- What is read in its turn has nothing read inside it: each formula field that its formula asks
for is remembered when it is asked for, and it is the one field in progress. -/
structure Unnested (engine : Engine δ) (field : String) : Prop where
  recalled : ∀ q ∈ engine.asked field, (Host.formula? engine.host q.path.root).isSome →
    (q.state.memo.results.find? q.path.root).isSome
  single : ∃ t, (∀ r' t', Resolver.Reads engine.host engine.config engine.clock field 0
      engine.resolver r' t' ↔ r' = (engine.read field).1 ∧ t' = t) ∧
    ∀ fields ∈ t.history, fields.length ≤ 1

/-- The formula fields that the formula of a field refers to are remembered, unless it is itself. -/
def Ready (engine : Engine δ) (field : String) : Prop :=
  engine.known field = none → ∀ text, Host.formula? engine.host field = some text →
    ∀ g ∈ references engine.config.maxDepth text,
      (Host.formula? engine.host g).isSome → (engine.known g).isSome

omit [Host δ] in
theorem results_entered (engine : Engine δ) (field text : String) :
    (engine.entered field text).session.memo.results = engine.memo.results :=
  (engine.memo.lookUp_results field).2

omit [Host δ] in
/-- A formula asks for the fields that its text refers to. -/
theorem asks_references (engine : Engine δ) {e : Expr}
    (he : Expr.ofText engine.config.maxDepth text = .ok e) :
    (e.eval (Session.setting engine.config engine.clock) 0 []).Asks
      fun path => path.root ∈ references engine.config.maxDepth text := by
  rw [references, he]
  exact Expr.eval_asks _ 0 e

theorem recalled_of_ready (hformulas : engine.formulas.Faithful engine.config.maxDepth)
    (hready : engine.Ready field) :
    ∀ q ∈ engine.asked field, Resolver.Recalls engine.host q.state.memo.results q.path := by
  intro q hq
  unfold asked at hq
  split at hq
  next text hdirty hformula =>
    rw [(hformulas.parse field text).1] at hq
    cases he : Expr.ofText engine.config.maxDepth text with
    | error failure =>
      rw [he] at hq
      exact absurd hq List.not_mem_nil
    | ok e =>
      rw [he] at hq
      -- no answer changes what is remembered
      have hkept (path : Path) (depth : Nat) (s : Session)
          (hpath : path.root ∈ references engine.config.maxDepth text)
          (hs : s.memo.results = engine.memo.results) :
          (Resolver.answer engine.host engine.config engine.clock (engine.entered field text) path
            depth s).2.memo.results = engine.memo.results := by
        have hrecalls := hready hdirty text hformula path.root hpath
        rw [show engine.known path.root = s.memo.results.find? path.root by rw [hs]] at hrecalls
        exact (Session.answer_ready _ _ _ _ depth hrecalls).2.results.trans hs
      obtain ⟨hpath, hstate⟩ := (engine.asks_references he).asked_keeps
        (fun s => s.memo.results = engine.memo.results) hkept (results_entered engine field text)
        q hq
      rw [Resolver.Recalls, hstate]
      exact hready hdirty text hformula q.path.root hpath
  next => exact absurd hq List.not_mem_nil

theorem length_le_one_of_ready (hroom : 1 ≤ engine.config.maxReferenceDepth)
    (hformulas : engine.formulas.Faithful engine.config.maxDepth) (hready : engine.Ready field)
    {r : Result} {t : Resolver}
    (h : Resolver.Reads engine.host engine.config engine.clock field 0 engine.resolver r t) :
    ∀ fields ∈ t.history, fields.length ≤ 1 := by
  cases hdirty : engine.known field with
  | some result =>
    have hquiet := Resolver.quiet_of_reads (s := engine.resolver)
      (Option.isSome_iff_exists.2 ⟨result, hdirty⟩) h
    rw [hquiet.history]
    exact fun _ hmem => absurd hmem List.not_mem_nil
  | none =>
    rw [reads_dirty_iff hroom hdirty] at h
    cases hformula : Host.formula? engine.host field with
    | none =>
      rw [hformula] at h
      obtain ⟨-, rfl⟩ := h
      exact fun _ hmem => absurd hmem List.not_mem_nil
    | some text =>
      rw [hformula] at h
      obtain ⟨u, hu, rfl⟩ := h
      rw [(hformulas.parse field text).1] at hu
      have hasks (e : Expr) (he : Expr.ofText engine.config.maxDepth text = .ok e) :=
        engine.asks_references he
      have hrecalls (path : Path) (hpath : path.root ∈ references engine.config.maxDepth text) :
          Resolver.Recalls engine.host (engine.entered field text).session.memo.results path := by
        rw [Resolver.Recalls, results_entered]
        exact hready hdirty text hformula path.root hpath
      have hquiet := Resolver.quiet_of_computes hrecalls hasks hu
      have hhistory : u.pop.history = [[field], []] := by
        rw [Resolver.pop, hquiet.history, hquiet.inProgress]
        rfl
      intro fields hmem
      rw [show _ = [[field], []] from hhistory] at hmem
      rw [List.mem_cons, List.mem_singleton] at hmem
      rcases hmem with rfl | rfl
      · exact le_rfl
      · exact Nat.zero_le _

/-- A field that is ready has nothing read inside it. -/
theorem unnested_of_ready (hroom : 1 ≤ engine.config.maxReferenceDepth)
    (hformulas : engine.formulas.Faithful engine.config.maxDepth) (hready : engine.Ready field) :
    engine.Unnested field where
  recalled := recalled_of_ready hformulas hready
  single := by
    obtain ⟨t, hends, -, -⟩ := engine.read_returns field
    exact ⟨t, hends, length_le_one_of_ready hroom hformulas hready ((hends _ t).2 ⟨rfl, rfl⟩)⟩

/-! ## What is computed -/

/-- A set takes in the targets, and with each field the stale fields that it refers to. -/
structure TakesIn (engine : Engine δ) (targets : NameSet) (fields : Set String) : Prop where
  targets : ∀ f ∈ targets, f ∈ fields
  precedents : ∀ u ∈ fields, ∀ v ∈ engine.graph.precedentsOf u,
    engine.fieldState v = .dirty → v ∈ fields

theorem isStale_iff_fieldState :
    engine.isStale field = true ↔ engine.fieldState field = .dirty := by
  rw [fieldState_eq]
  split <;> simp_all

/-- What is computed is the least such set. -/
theorem isLeast_withStalePrecedents (engine : Engine δ) (targets : NameSet) :
    IsLeast {fields | engine.TakesIn targets fields}
      {f | f ∈ engine.withStalePrecedents targets} := by
  refine ⟨⟨fun f hf => target_mem_within hf, fun u hu v hv hdirty => ?_⟩, fun fields h f hf => ?_⟩
  · exact mem_within_of_stale hu hv (isStale_iff_fieldState.2 hdirty)
  · obtain ⟨t, ht, hway⟩ := mem_withStalePrecedents.1 hf
    induction hway with
    | refl => exact h.targets t ht
    | tail hway hstep ih =>
      have hprevious := ih (mem_withStalePrecedents.2 ⟨t, ht, hway⟩)
      exact h.precedents _ hprevious _ hstep.1 (isStale_iff_fieldState.1 hstep.2)

/-! ## Turns -/

/-- The fault that the fields of a group get when it is its turn, if they are on a circle. -/
def circleFault? (p : Progress δ) (group : List String) : Option Fault :=
  if p.engine.graph.isCyclic group then some (groupFault group) else none

/-- It is the turn of a field in a computation of some targets in order, with what the computation
has come to before: the groups before its own are done, and the fields before it in its own. -/
def AtTurn (engine : Engine δ) (targets : NameSet) (p : Progress δ) (fault? : Option Fault)
    (field : String) : Prop :=
  ∃ before earlier later after, ∃ q : Progress δ,
    engine.graph.components (engine.withStalePrecedents targets) =
      before ++ (earlier ++ field :: later) :: after ∧
    q = before.foldl (advanceGroup targets) ⟨engine, .empty, []⟩ ∧
    fault? = circleFault? q (earlier ++ field :: later) ∧
    p = earlier.foldl (advance targets fault?) q

omit [Host δ] in
/-- The groups before one come in the order of their references, and then it is next. -/
theorem ordered_before {g : Graph} {within : NameSet} {done group : List String}
    {before after : List (List String)} (h : g.Ordered within done (before ++ group :: after)) :
    g.Ordered within done before ∧
      ∃ done', (∀ f, f ∈ done' ↔ f ∈ before.flatten ∨ f ∈ done) ∧
        g.NextGroup within done' group := by
  induction before generalizing done with
  | nil => exact ⟨trivial, done, by simp, h.1⟩
  | cons first rest ih =>
    obtain ⟨hrest, done', hdone', hnext⟩ := ih h.2
    refine ⟨⟨h.1, hrest⟩, done', fun f => ?_, hnext⟩
    rw [hdone', List.flatten_cons, List.mem_append, List.mem_append]
    tauto

/-- What holds at the start of a computation in order, and again after each turn of a field, holds
whenever it is the turn of a field. -/
theorem AtTurn.induct {motive : List String → Progress δ → Prop} {p : Progress δ}
    {fault? : Option Fault} (h : engine.AtTurn targets p fault? field)
    (start : motive [] ⟨engine, .empty, []⟩)
    (step : ∀ done p fault? field,
      engine.Turn (engine.withStalePrecedents targets) done fault? field → motive done p →
      motive (field :: done) (advance targets fault? p field)) :
    ∃ done, engine.Turn (engine.withStalePrecedents targets) done fault? field ∧ motive done p := by
  obtain ⟨before, earlier, later, after, q, hgroups, rfl, rfl, rfl⟩ := h
  have hordered := Graph.ordered_components engine.graph (engine.withStalePrecedents targets)
  rw [hgroups] at hordered
  obtain ⟨hbefore, done₀, hdone₀, hnext⟩ := ordered_before hordered
  have hmem {group : List String}
      (hgroup : group ∈ before ++ (earlier ++ field :: later) :: after) :
      group ∈ engine.graph.components (engine.withStalePrecedents targets) := hgroups ▸ hgroup
  have hgraph : (before.foldl (advanceGroup targets) ⟨engine, .empty, []⟩).engine.graph =
      engine.graph :=
    List.foldlRecOn (motive := fun q : Progress δ => q.engine.graph = engine.graph) before _ rfl
      fun q hq group _ => (graph_advanceGroup targets q group).trans hq
  obtain ⟨done₁, hdone₁, hstart⟩ := foldl_groups
    (fun group hgroup => hmem (List.mem_append_left _ hgroup)) hbefore (fun _ => Iff.rfl) rfl step
    start
  generalize before.foldl (advanceGroup targets) ⟨engine, .empty, []⟩ = q at hgraph hstart ⊢
  have hturn (done : List String) (f : String) (hsub : done₁ ⊆ done)
      (hf : f ∈ earlier ++ field :: later) (hnew : f ∉ done) :
      engine.Turn (engine.withStalePrecedents targets) done
        (circleFault? q (earlier ++ field :: later)) f := by
    rw [circleFault?, hgraph]
    refine turn_of_nextGroup (hmem (List.mem_append_right _ List.mem_cons_self)) hnext ?_ hf hnew
    exact fun g hg => hsub ((hdone₁ g).2 ((hdone₀ g).1 hg))
  have hfresh (f : String) (hf : f ∈ earlier ++ field :: later) : f ∉ done₁ :=
    fun hd => hnext.fresh f hf ((hdone₀ f).2 ((hdone₁ f).1 hd))
  obtain ⟨hearlier, -, hdisjoint⟩ := List.nodup_append.1 hnext.nodup
  have hfield : field ∈ earlier ++ field :: later :=
    List.mem_append_right _ List.mem_cons_self
  refine ⟨earlier.reverse ++ done₁, hturn _ field (List.subset_append_right _ _) hfield ?_,
    foldl_turns (fun done f hsub hf => hturn done f hsub (List.mem_append_left _ hf))
      (fun f hf => hfresh f (List.mem_append_left _ hf)) hearlier step hstart⟩
  rw [List.mem_append, List.mem_reverse, not_or]
  exact ⟨fun hf => hdisjoint field hf field List.mem_cons_self rfl, hfresh field hfield⟩

/-! ## All that is done is remembered -/

/-- A computation in order keeps what an engine goes by and what it remembers, and all that is
done is remembered. -/
structure Recorded (engine : Engine δ) (done : List String) (p : Progress δ) : Prop where
  frame : ∃ memo formulas, p.engine = { engine with memo, formulas }
  formulas : p.engine.formulas.Faithful engine.config.maxDepth
  kept : ∀ f, (engine.known f).isSome → (p.engine.known f).isSome
  remembered : ∀ f ∈ done, (Host.formula? engine.host f).isSome → (p.engine.known f).isSome

namespace Recorded

variable {done : List String} {p : Progress δ}

theorem host_eq (h : engine.Recorded done p) : p.engine.host = engine.host := by
  obtain ⟨memo, formulas, heq⟩ := h.frame
  rw [heq]

theorem config_eq (h : engine.Recorded done p) : p.engine.config = engine.config := by
  obtain ⟨memo, formulas, heq⟩ := h.frame
  rw [heq]

/-- A field whose turn it is to be read is ready. -/
theorem ready (hinStep : engine.InStep) (h : engine.Recorded done p)
    (hturn : engine.Turn (engine.withStalePrecedents targets) done none field) :
    p.engine.Ready field := by
  cases hturn with
  | read hin _ _ hready =>
    intro _ text hformula g hg hgformula
    rw [h.host_eq] at hformula hgformula
    rw [h.config_eq] at hg
    have hreads : engine.graph.Reads field g := hinStep.reads_iff.2 ⟨text, hformula, hg⟩
    cases hknown : engine.known g with
    | some result => exact h.kept g (Option.isSome_iff_exists.2 ⟨result, hknown⟩)
    | none =>
      have hstale : engine.isStale g = true := isStale_iff.2 ⟨hknown, hgformula⟩
      exact h.remembered g (hready g (mem_within_of_stale hin hreads hstale) hreads) hgformula

/-- One more field is done when its turn leaves it remembered, and what was so before. -/
theorem cons_of_next {fault? : Option Fault} {memo : Memo} {formulas : Formulas} {result : Result}
    (h : engine.Recorded done p)
    (hstep : p.engine.computeField fault? field = (result, { p.engine with memo, formulas }))
    (hformulas : formulas.Faithful engine.config.maxDepth)
    (hkept : ∀ f, (p.engine.known f).isSome → (memo.results.find? f).isSome)
    (hfield : (Host.formula? engine.host field).isSome → (memo.results.find? field).isSome) :
    engine.Recorded (field :: done) (Engine.advance targets fault? p field) := by
  rw [advance_eq hstep]
  obtain ⟨memo', formulas', heq⟩ := h.frame
  refine ⟨⟨memo, formulas, by rw [heq]⟩, hformulas, fun f hf => hkept f (h.kept f hf), ?_⟩
  exact List.forall_mem_cons.2 ⟨hfield, fun f hf hformula => hkept f (h.remembered f hf hformula)⟩

theorem advance {fault? : Option Fault} (hinStep : engine.InStep)
    (hroom : 1 ≤ engine.config.maxReferenceDepth) (h : engine.Recorded done p)
    (hturn : engine.Turn (engine.withStalePrecedents targets) done fault? field) :
    engine.Recorded (field :: done) (Engine.advance targets fault? p field) := by
  cases fault? with
  | some fault =>
    refine h.cons_of_next rfl h.formulas (fun f hf => ?_) fun _ => ?_
    · rw [Memo.find?_store]
      split
      · rfl
      · exact hf
    · rw [Memo.find?_store, if_pos rfl]
      rfl
  | none =>
    have hgrown : Session.Grown p.engine.host p.engine.config [] p.engine.session
        (Session.readField p.engine.host p.engine.config p.engine.clock
          p.engine.config.maxReferenceDepth [] field 0 p.engine.session).2 :=
      Session.grown_readField ..
    have hkept (f : String) (hf : (p.engine.known f).isSome) :
        ((p.engine.read field).2.known f).isSome := by
      obtain ⟨result, hresult⟩ := Option.isSome_iff_exists.1 hf
      exact Option.isSome_iff_exists.2 ⟨result, hgrown.kept f result hresult⟩
    refine h.cons_of_next rfl (h.config_eq ▸ hgrown.formulas (h.config_eq ▸ h.formulas)) hkept ?_
    intro hformula
    cases hknown : p.engine.known field with
    | some result => exact hkept field (Option.isSome_iff_exists.2 ⟨result, hknown⟩)
    | none =>
      rw [← h.host_eq] at hformula
      obtain ⟨text, htext⟩ := Option.isSome_iff_exists.1 hformula
      obtain ⟨memo, formulas, hread, hresults, -, -⟩ := read_ready (h.config_eq ▸ h.formulas)
        (h.config_eq ▸ hroom) htext hknown (h.ready hinStep hturn hknown text htext)
      have hfield : (p.engine.read field).2.known field = some (p.engine.resultOf text) := by
        rw [hread]
        exact (congrArg (NameMap.find? · field) hresults).trans
          ((NameMap.find?_insert ..).trans (if_pos rfl))
      exact Option.isSome_iff_exists.2 ⟨_, hfield⟩

end Recorded

/-- Whenever it is the turn of a field to be read, it is ready. -/
theorem AtTurn.unnested {p : Progress δ} (hinStep : engine.InStep)
    (hroom : 1 ≤ engine.config.maxReferenceDepth) (h : engine.AtTurn targets p none field) :
    p.engine.Unnested field := by
  obtain ⟨done, hturn, hrecorded⟩ := h.induct (motive := engine.Recorded)
    ⟨⟨_, _, rfl⟩, hinStep.formulas, fun _ hf => hf, fun _ hf => absurd hf List.not_mem_nil⟩
    (fun _ _ _ _ hturn hp => hp.advance hinStep hroom hturn)
  obtain ⟨memo, formulas, heq⟩ := hrecorded.frame
  have hready := hrecorded.ready hinStep hturn
  have hformulas := hrecorded.formulas
  rw [heq] at hready hformulas ⊢
  exact unnested_of_ready hroom hformulas hready

end

/-- **Main result.** After any run, also one that evaluated expressions, what is computed for some
targets is the least set that takes in the stale fields its members refer to.  While it is computed
in order, a field that is read in its turn has no other one read inside it: its formula asks for
remembered fields alone. -/
theorem performAll_unnested {δ : Type} [Owner δ] (config : Config) (clock : Instant) (host : δ)
    (actions : List Action) (targets : NameSet) :
    let engine := (build config clock host).performAll actions
    IsLeast {fields | engine.TakesIn targets fields} {f | f ∈ engine.withStalePrecedents targets} ∧
      (1 ≤ config.maxReferenceDepth →
        ∀ p field, engine.AtTurn targets p none field → p.engine.Unnested field) := by
  intro engine
  obtain ⟨hinStep, hconfig⟩ := inStep_run (inStep_build config clock host) actions
  refine ⟨isLeast_withStalePrecedents engine targets, fun hroom p field h => ?_⟩
  rw [← config_build config clock host, ← hconfig] at hroom
  exact h.unnested hinStep hroom

/-- Fields that refer to each other in a chain. -/
def chained : Document where
  fields := [⟨"a", .other, .null, some "{b}", []⟩, ⟨"b", .other, .null, some "{c}", []⟩,
    ⟨"c", .other, .null, some "true", []⟩]
  distinct := by decide

/-- An engine over them that computes no field inside another one.  An expression failed to read
the second field, because it needs the last one, and that was read then. -/
def chainedEngine : Engine Document :=
  (build ⟨64, 1, .whenRead⟩ ⟨0, 0⟩ chained).performAll [.evaluate "{b}", .value "c"]

set_option maxRecDepth 8192 in
/-- In order the second field is read before the first one, which then finds it remembered. -/
theorem performAll_unnested_chained :
    chainedEngine.known "b" = none ∧
    ∃ p, chainedEngine.AtTurn (.ofList ["a"]) p none "a" ∧ p.engine.Unnested "a" ∧
      (p.engine.asked "a").map (fun q => q.path.root) = ["b"] := by
  have hturn : chainedEngine.AtTurn (.ofList ["a"])
      ([["b"]].foldl (advanceGroup (.ofList ["a"])) ⟨chainedEngine, .empty, []⟩) none "a" :=
    ⟨[["b"]], [], [], [], _, by cbv, rfl, by cbv, rfl⟩
  refine ⟨by cbv, _, hturn, ?_, by cbv⟩
  exact (performAll_unnested _ ⟨0, 0⟩ chained [.evaluate "{b}", .value "c"] (.ofList ["a"])).2
    (by decide) _ "a" hturn

end Engine
end Formulary
