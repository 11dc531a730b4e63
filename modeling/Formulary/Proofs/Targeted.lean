/-
  Updates compute what depends on the written field, and nothing else.

  Where no formula field is stale, a write makes stale just those that depend on the
  field.  These are the targets of the recomputation, and nothing else is computed for
  them.  One that is on no circle is evaluated, and all of them are pushed.

  * `Engine.Counted`: the stale fields off the circles were evaluated, each once;
  * `Engine.counted_computeInOrder`: a computation in order evaluates no others;
  * `Engine.Written.knot_iff`: the circles of what is computed are those of the graph;
  * `Engine.update_targeted`: what an update evaluates, pushes, returns and leaves alone,
    in an engine without stale fields.
-/
import Formulary.Proofs.Aside
import Formulary.Proofs.Observation

namespace Formulary.Engine

open Relation

/-! ## Counts -/

section

variable {δ : Type} [Host δ] {engine : Engine δ} {targets within : NameSet} {done : List String}
  {p : Progress δ} {field : String}

/-- The number of evaluations so far. -/
abbrev evaluations (engine : Engine δ) : Nat := engine.memo.counts.evaluations

/-- Of the fields that are done those were evaluated that were stale and are on no circle,
each once. -/
def Counted (engine : Engine δ) (within : NameSet) (done : List String) (p : Progress δ) : Prop :=
  ∃ computed : List String, computed.Nodup ∧
    (∀ f, f ∈ computed ↔ f ∈ done ∧ ¬ engine.Knot within f ∧ engine.known f = none) ∧
    p.engine.evaluations = engine.evaluations + computed.length

theorem evaluations_advance (targets : NameSet) (fault? : Option Fault) (p : Progress δ)
    (field : String) :
    (advance targets fault? p field).engine.evaluations =
      (p.engine.computeField fault? field).2.evaluations := by
  rw [advance_eq (show p.engine.computeField fault? field = (_, _) from rfl)]
  rfl

/-- A turn at which nothing is evaluated is that of a field on a circle, or of one that is
remembered. -/
theorem Counted.same (h : engine.Counted within done p) {fault? : Option Fault}
    (hfield : engine.Knot within field ∨ engine.known field ≠ none)
    (hsame : (p.engine.computeField fault? field).2.evaluations = p.engine.evaluations) :
    engine.Counted within (field :: done) (advance targets fault? p field) := by
  obtain ⟨computed, hnodup, hmem, hcount⟩ := h
  refine ⟨computed, hnodup, fun f => ?_, ?_⟩
  · rw [hmem, List.mem_cons]
    constructor
    · rintro ⟨hf, hrest⟩
      exact ⟨.inr hf, hrest⟩
    · rintro ⟨rfl | hf, hknot, hnone⟩
      · rcases hfield with hk | hk
        · exact absurd hk hknot
        · exact absurd hnone hk
      · exact ⟨hf, hknot, hnone⟩
  · rw [evaluations_advance, hsame, hcount]

/-- A stale field off the circles is evaluated once. -/
theorem Counted.one (h : engine.Counted within done p) {fault? : Option Fault}
    (hnew : field ∉ done) (hknot : ¬ engine.Knot within field) (hstale : engine.known field = none)
    (hone : (p.engine.computeField fault? field).2.evaluations = p.engine.evaluations + 1) :
    engine.Counted within (field :: done) (advance targets fault? p field) := by
  obtain ⟨computed, hnodup, hmem, hcount⟩ := h
  refine ⟨field :: computed, ?_, fun f => ?_, ?_⟩
  · rw [List.nodup_cons, hmem]
    exact ⟨fun hf => hnew hf.1, hnodup⟩
  · rw [List.mem_cons, List.mem_cons, hmem]
    constructor
    · rintro (rfl | ⟨hf, hrest⟩)
      · exact ⟨.inl rfl, hknot, hstale⟩
      · exact ⟨.inr hf, hrest⟩
    · rintro ⟨rfl | hf, hrest⟩
      · exact .inl rfl
      · exact .inr ⟨hf, hrest⟩
  · rw [evaluations_advance, hone, hcount, List.length_cons, Nat.add_assoc]

/-- One more turn: a field whose turn it is to be read is evaluated if it is stale. -/
theorem Counted.advance {fault? : Option Fault} (hinStep : engine.InStep)
    (hroom : 1 ≤ engine.config.maxReferenceDepth)
    (hformula : ∀ f ∈ within, (Host.formula? engine.host f).isSome)
    (hstale : ∀ f ∈ within, ∀ g, engine.graph.Reads f g → engine.isStale g = true → g ∈ within)
    (hturn : engine.Turn within done fault? field) (hp : engine.Scheduled targets within done p)
    (h : engine.Counted within done p) :
    engine.Counted within (field :: done) (Engine.advance targets fault? p field) := by
  cases hturn with
  | circle _ _ _ _ _ hknot => exact h.same (.inl hknot) rfl
  | read hin hnew hknot hready =>
    have hknown := hp.outside field hnew
    cases hclean : engine.known field with
    | some r =>
      rw [hclean] at hknown
      obtain ⟨memo, hread, -, hsame⟩ := read_clean hknown
      refine h.same (.inr (by simp [hclean])) ?_
      rw [computeField, hread]
      exact hsame
    | none =>
      rw [hclean] at hknown
      obtain ⟨text, htext⟩ := Option.isSome_iff_exists.1 (hformula field hin)
      have hall := Scheduled.isSome_of_reads hinStep hready (hstale field hin) hp htext
      rw [← hp.config_eq, ← hp.host_eq] at hall
      obtain ⟨memo, formulas, hread, -, -, hone⟩ := read_ready
        (hp.config_eq ▸ hp.formulas) (hp.config_eq ▸ hroom) (hp.host_eq ▸ htext) hknown hall
      refine h.one hnew hknot hclean ?_
      rw [computeField, hread]
      exact hone

/-- A computation in order evaluates the stale fields off the circles, each once, and no
others. -/
theorem counted_computeInOrder (hinStep : engine.InStep)
    (hroom : 1 ≤ engine.config.maxReferenceDepth)
    (htargets : ∀ f ∈ targets, (Host.formula? engine.host f).isSome) :
    engine.Counted (engine.withStalePrecedents targets) (engine.withStalePrecedents targets).names
      (engine.computeInOrder targets) := by
  have hformula := formula_of_mem_within htargets
  have hstale : ∀ f ∈ engine.withStalePrecedents targets, ∀ g, engine.graph.Reads f g →
      engine.isStale g = true → g ∈ engine.withStalePrecedents targets :=
    fun _ hf _ hreads hs => mem_within_of_stale hf hreads hs
  obtain ⟨done, hdone, -, computed, hnodup, hmem, hcount⟩ := computeInOrder_induct engine targets
    (motive := fun done p =>
      engine.Scheduled targets (engine.withStalePrecedents targets) done p ∧
        engine.Counted (engine.withStalePrecedents targets) done p)
    ⟨scheduled_start hinStep.formulas targets _, [], List.nodup_nil, by simp, rfl⟩
    fun _ _ _ _ hturn h => ⟨h.1.advance hinStep hroom hformula hstale hturn,
      h.2.advance hinStep hroom hformula hstale hturn h.1⟩
  refine ⟨computed, hnodup, fun f => ?_, hcount⟩
  rw [hmem, hdone, NameSet.mem_names]

end

/-! ## Recomputations -/

section

variable {δ : Type} [Owner δ] {engine : Engine δ} {field : String}

/-- A recomputation returns results of the formula fields among some fields. -/
theorem keys_recompute (hinStep : engine.InStep) (hroom : 1 ≤ engine.config.maxReferenceDepth)
    (fields : NameSet) (f : String) :
    ((engine.recompute fields).1.find? f).isSome ↔
      f ∈ fields ∧ (Host.formula? engine.host f).isSome := by
  constructor
  · intro hsome
    exact mem_targetsOf.1 (target_of_results hsome)
  · rintro ⟨hf, hformula⟩
    obtain ⟨r, hr, -⟩ := recompute_target hinStep hroom hf hformula
    rw [hr]
    rfl

/-- A recomputation for which no field is computed aside evaluates the stale ones among its
fields that are on no circle. -/
theorem evaluations_recompute (hinStep : engine.InStep)
    (hroom : 1 ≤ engine.config.maxReferenceDepth) (fields : NameSet) :
    ∃ computed : List String, computed.Nodup ∧
      (∀ f, f ∈ computed ↔ f ∈ engine.withStalePrecedents (engine.targetsOf fields) ∧
        ¬ engine.Knot (engine.withStalePrecedents (engine.targetsOf fields)) f ∧
        engine.known f = none) ∧
      (engine.recompute fields).2.evaluations = engine.evaluations + computed.length := by
  obtain ⟨p, host, heq, rfl, -, -⟩ := recompute_eq hinStep hroom fields
  obtain ⟨computed, hnodup, hmem, hcount⟩ := counted_computeInOrder hinStep hroom
    fun f hf => (mem_targetsOf.1 hf).2
  exact ⟨computed, hnodup, hmem, by rw [heq]; exact hcount⟩

/-! ## Updates -/

/-- What depends on a field, as far as it has a formula. -/
theorem Written.mem_targetsOf_iff {start : Engine δ} {v : Value} (h : engine.Written field v start)
    (hinStep : engine.InStep) {f : String} :
    f ∈ start.targetsOf (engine.graph.affected [field]) ↔
      (Host.formula? engine.host f).isSome ∧ ReflTransGen engine.graph.Reads f field := by
  rw [mem_targetsOf, Graph.mem_affected_iff hinStep.mirrored, (h.declared f).formula]
  simp [and_comm]

section

variable {start : Engine δ} {v : Value} {f : String}

/-- A field that depends on the written one has a formula, unless it is this field. -/
theorem Written.mem_affected_iff (h : engine.Written field v start) (hinStep : engine.InStep)
    (hne : f ≠ field) :
    f ∈ engine.graph.affected [field] ↔
      f ∈ start.targetsOf (engine.graph.affected [field]) := by
  rw [mem_targetsOf]
  refine ⟨fun hf => ⟨hf, ?_⟩, fun hf => hf.1⟩
  obtain ⟨s, hs, hway⟩ := (Graph.mem_affected_iff hinStep.mirrored).1 hf
  obtain rfl := List.mem_singleton.1 hs
  rcases hway.cases_head with heq | ⟨g, hreads, -⟩
  · exact absurd heq hne
  · exact (h.inStep hinStep).formula_of_reads (h.graph ▸ hreads)

/-- Where no formula field was stale, nothing is computed aside. -/
theorem Written.within_eq (h : engine.Written field v start)
    (hclean : ∀ f, (Host.formula? engine.host f).isSome → (engine.known f).isSome) :
    start.withStalePrecedents (start.targetsOf (engine.graph.affected [field])) =
      start.targetsOf (engine.graph.affected [field]) := by
  refine NameSet.ext_mem fun f => ⟨fun hf => ?_, target_mem_within⟩
  rcases target_or_stale hf with htarget | hstale
  · exact htarget
  · obtain ⟨hnone, hformula⟩ := isStale_iff.1 hstale
    refine mem_targetsOf.2 ⟨?_, hformula⟩
    by_contra hfar
    rw [h.known, if_neg hfar] at hnone
    rw [(h.declared f).formula] at hformula
    simpa [hnone] using hclean f hformula

/-- Then a target is on a circle of the targets if it is on any circle. -/
theorem Written.knot_iff (h : engine.Written field v start) (hinStep : engine.InStep)
    (hclean : ∀ f, (Host.formula? engine.host f).isSome → (engine.known f).isSome)
    (hf : f ∈ start.targetsOf (engine.graph.affected [field])) :
    start.Knot (start.withStalePrecedents (start.targetsOf (engine.graph.affected [field]))) f ↔
      TransGen engine.graph.Reads f f := by
  rw [h.within_eq hclean]
  have hgraph := h.graph
  constructor
  · intro hknot
    rw [← hgraph]
    exact Graph.OnCircle.of_within hknot
  · intro hcircle
    rw [← hgraph] at hcircle
    refine Graph.OnCircle.within hcircle hf fun u _ _ w _ hwf => ?_
    -- what leads to a target leads to the written field, and has a formula
    have hway := ((h.mem_targetsOf_iff hinStep).1 hf).2
    rw [← hgraph] at hway
    refine mem_targetsOf.2 ⟨(Graph.mem_affected_iff hinStep.mirrored).2
      ⟨field, List.mem_singleton_self field, hgraph ▸ hwf.trans hway⟩, ?_⟩
    rcases hwf.cases_head with rfl | ⟨g, hreads, -⟩
    · exact (mem_targetsOf.1 hf).2
    · exact (h.inStep hinStep).formula_of_reads hreads

end

end

section

variable {δ : Type} [Owner δ] {engine : Engine (Traced δ)}

/-- An update of an engine without stale fields: what it evaluates, pushes, returns and
leaves as it is. -/
theorem targeted_update (hinStep : engine.InStep) (hroom : 1 ≤ engine.config.maxReferenceDepth)
    (heager : engine.config.policy = .eager)
    (hclean : ∀ f, (Host.formula? engine.host f).isSome → (engine.known f).isSome)
    (field : String) (v : Value) :
    ∃ dependents offCircle : NameSet,
      (∀ f, f ∈ dependents ↔ (Host.formula? engine.host f).isSome ∧
        ReflTransGen engine.graph.Reads f field) ∧
      (∀ f, f ∈ offCircle ↔ f ∈ dependents ∧ ¬ TransGen engine.graph.Reads f f) ∧
      (engine.update field v).2.evaluations = engine.evaluations + offCircle.names.length ∧
      (∃ pushes, (engine.update field v).2.host.pushed = engine.host.pushed ++ pushes ∧
        (pushes.map Prod.fst).Perm dependents.names) ∧
      (∀ f, ((engine.update field v).1.find? f).isSome ↔ f ∈ dependents) ∧
      ∀ f, f ∉ dependents → f ≠ field →
        (engine.update field v).2.known f = engine.known f ∧
          Host.value? (engine.update field v).2.host f = Host.value? engine.host f := by
  obtain ⟨start, h, hupdate⟩ := update_eq engine field v
  simp only [heager] at hupdate
  have hstart := h.inStep hinStep
  have hroom : 1 ≤ start.config.maxReferenceDepth := h.config ▸ hroom
  have hwithin := h.within_eq hclean
  obtain ⟨computed, hnodup, hmem, hcount⟩ :=
    evaluations_recompute hstart hroom (engine.graph.affected [field])
  obtain ⟨pushes, hpushed, hdistinct, hpushes⟩ :=
    pushed_recompute hstart hroom (engine.graph.affected [field])
  rw [hupdate]
  refine ⟨start.targetsOf (engine.graph.affected [field]), NameSet.ofList computed,
    fun f => h.mem_targetsOf_iff hinStep, fun f => ?_, ?_, ⟨pushes, ?_, ?_⟩, fun f => ?_,
    fun f hf hne => ⟨?_, ?_⟩⟩
  · rw [NameSet.mem_ofList, hmem]
    constructor
    · rintro ⟨hf, hknot, -⟩
      rw [hwithin] at hf
      exact ⟨hf, fun hcircle => hknot ((h.knot_iff hinStep hclean hf).2 hcircle)⟩
    · rintro ⟨hf, hcircle⟩
      refine ⟨target_mem_within hf, fun hknot => ?_, ?_⟩
      · exact hcircle ((h.knot_iff hinStep hclean hf).1 hknot)
      · rw [h.known, if_pos (mem_targetsOf.1 hf).1]
  · have hperm : (NameSet.ofList computed).names.Perm computed := by
      refine (List.perm_ext_iff_of_nodup (NameSet.nodup _) hnodup).2 fun f => ?_
      rw [NameSet.mem_names, NameSet.mem_ofList]
    rw [hcount, hperm.length_eq, evaluations, h.counts]
  · rw [hpushed, h.host]
    rfl
  · refine (List.perm_ext_iff_of_nodup hdistinct (NameSet.nodup _)).2 fun f => ?_
    rw [hpushes, NameSet.mem_names, mem_targetsOf, isStale_iff, h.known]
    constructor
    · rintro ⟨hf, -, hformula⟩
      exact ⟨hf, hformula⟩
    · rintro ⟨hf, hformula⟩
      exact ⟨hf, if_pos hf, hformula⟩
  · rw [keys_recompute hstart hroom, mem_targetsOf]
  · have hfar : f ∉ engine.graph.affected [field] := fun hmem =>
      hf ((h.mem_affected_iff hinStep hne).1 hmem)
    obtain ⟨p, host, heq, -, hp, -⟩ := recompute_eq hstart hroom (engine.graph.affected [field])
    rw [heq]
    refine (hp.outside f ?_).trans ((h.known f).trans (if_neg hfar))
    rwa [NameSet.mem_names, hwithin]
  · have hfar : f ∉ engine.graph.affected [field] := fun hmem =>
      hf ((h.mem_affected_iff hinStep hne).1 hmem)
    exact (value?_recompute hstart hroom hfar).trans (h.value? hne)

/-- **Main result.** Under the eager policy, let a newly built engine run to a state in which
every formula field is clean, and then write a value.  It evaluates each formula field that
depends on the written one, directly or through others, and is on no circle of references; it
pushes a value of each of those that depend on it, once, and returns a result of each; and it
leaves the results and the values of all other fields as they are. -/
theorem update_targeted {δ : Type} [Owner δ] {config : Config} (clock : Instant) (host : δ)
    (hroom : 1 ≤ config.maxReferenceDepth) (heager : config.policy = .eager)
    (run : List Action) :
    let before := (build config clock (⟨host, []⟩ : Traced δ)).performAll run
    (∀ f, before.fieldState f = .clean) → ∀ (field : String) (v : Value),
    let step := before.update field v
    ∃ dependents offCircle : NameSet,
      (∀ f, f ∈ dependents ↔ (Host.formula? before.host f).isSome ∧
        ReflTransGen (Host.Refers config.maxDepth before.host) f field) ∧
      (∀ f, f ∈ offCircle ↔ f ∈ dependents ∧
        ¬ TransGen (Host.Refers config.maxDepth before.host) f f) ∧
      step.2.memo.counts.evaluations =
        before.memo.counts.evaluations + offCircle.names.length ∧
      (∃ pushes, step.2.host.pushed = before.host.pushed ++ pushes ∧
        (pushes.map Prod.fst).Perm dependents.names) ∧
      (∀ f, (step.1.find? f).isSome ↔ f ∈ dependents) ∧
      ∀ f, f ∉ dependents → f ≠ field →
        step.2.known f = before.known f ∧
          Host.value? step.2.host f = Host.value? before.host f := by
  intro before hclean field v
  obtain ⟨hinStep, hconfig⟩ := inStep_run (inStep_build config clock (⟨host, []⟩ : Traced δ)) run
  rw [config_build] at hconfig
  have htargeted := targeted_update hinStep (by rwa [hconfig]) (by rwa [hconfig])
    (fun f hformula => (clean_iff hformula).1 (hclean f)) field v
  rw [hinStep.reads_eq, hconfig] at htargeted
  exact htargeted

/-- A plain field, a formula that refers to it, another that refers to both, and two that refer
to each other and to it. -/
def braided : Document where
  fields := [⟨"x", .other, .boolean true, none, []⟩, ⟨"a", .other, .null, some "not({x})", []⟩,
    ⟨"b", .other, .null, some "or({a}, {x})", []⟩, ⟨"p", .other, .null, some "or({x}, {q})", []⟩,
    ⟨"q", .other, .null, some "{p}", []⟩]
  distinct := by decide

/-- All is computed. -/
def braidedEngine : Engine (Traced Document) :=
  (build .standard ⟨0, 0⟩ ⟨braided, []⟩).performAll [.evaluateAll]

set_option maxRecDepth 8192 in
/-- A write to the plain field evaluates two fields, and pushes four. -/
theorem update_targeted_braided :
    (1 ≤ Config.standard.maxReferenceDepth ∧ Config.standard.policy = .eager ∧
      ∀ f, braidedEngine.fieldState f = .clean) ∧
      (braidedEngine.evaluations = 2 ∧
        (braidedEngine.update "x" (.boolean false)).2.evaluations = 4) ∧
      ∃ pushes, (braidedEngine.update "x" (.boolean false)).2.host.pushed =
        braidedEngine.host.pushed ++ pushes ∧ (pushes.map Prod.fst).Perm ["a", "b", "p", "q"] := by
  obtain ⟨hfields, hresults, hbefore⟩ :
      Host.formulaFields braidedEngine.host = ["a", "b", "p", "q"] ∧
        braidedEngine.memo.results.names = ["a", "b", "p", "q"] ∧
        braidedEngine.evaluations = 2 := by cbv
  obtain ⟨hnames, hafter⟩ :
      (braidedEngine.update "x" (.boolean false)).1.names = ["a", "b", "p", "q"] ∧
        (braidedEngine.update "x" (.boolean false)).2.evaluations = 4 := by cbv
  have hclean : ∀ f, braidedEngine.fieldState f = .clean := by
    intro f
    cases hformula : Host.formula? braidedEngine.host f with
    | none =>
      unfold fieldState
      rw [hformula]
    | some text =>
      have hsome : (Host.formula? braidedEngine.host f).isSome := by rw [hformula]; rfl
      refine (clean_iff hsome).2 (NameMap.mem_names.1 ?_)
      rw [hresults, ← hfields]
      exact (Owner.mem_formulaFields _ f).2 hsome
  obtain ⟨dependents, offCircle, -, -, -, ⟨pushes, hpushed, hperm⟩, hkeys, -⟩ :=
    update_targeted ⟨0, 0⟩ braided (by decide) rfl [.evaluateAll] hclean "x" (.boolean false)
  have hdependents : dependents = NameSet.ofList ["a", "b", "p", "q"] := by
    refine NameSet.ext_mem fun f => (hkeys f).symm.trans ?_
    rw [← NameMap.mem_names, NameSet.mem_ofList, ← hnames]
    rfl
  rw [hdependents] at hperm
  exact ⟨⟨by decide, rfl, hclean⟩, ⟨hbefore, hafter⟩, pushes, hpushed, hperm⟩

end

end Formulary.Engine
