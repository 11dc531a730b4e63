/-
  What a computation in order comes to.

  * `Engine.mem_withStalePrecedents`: what is computed for some targets;
  * `Engine.Turn`, `Engine.computeInOrder_induct`: the turn of a field comes after those
    of the fields that it reads, unless it is on a circle;
  * `Engine.Scheduled`: the state of a computation of which some fields are done;
  * `Engine.Scheduled.advance`: one more field whose turn it is;
  * `Engine.scheduled_computeInOrder`: in an engine that is in step, all is done,
    and every formula was computed from what is remembered in the end.
-/
import Formulary.Proofs.Recall

namespace Formulary.Engine

open Relation

variable {δ : Type} [Host δ] {engine : Engine δ} {targets within : NameSet}
  {field other text : String}

/-! ## What is computed -/

theorem state_beq_dirty (m : Memo) (field : String) :
    (m.state field == .dirty) = (m.results.find? field).isNone := by
  unfold Memo.state NameMap.contains
  cases m.results.find? field <;> rfl

theorem isStale_iff : engine.isStale field = true ↔
    engine.known field = none ∧ (Host.formula? engine.host field).isSome := by
  rw [isStale, state_beq_dirty, Bool.and_eq_true, Option.isNone_iff_eq_none]

theorem fieldState_eq (engine : Engine δ) (field : String) :
    engine.fieldState field = if engine.isStale field then .dirty else .clean := by
  unfold fieldState
  rw [isStale, state_beq_dirty]
  unfold Memo.state NameMap.contains
  cases Host.formula? engine.host field with
  | none => simp
  | some text => cases engine.memo.results.find? field <;> rfl

/-- A field reads a stale one. -/
def ReadsStale (engine : Engine δ) (u v : String) : Prop :=
  engine.graph.Reads u v ∧ engine.isStale v = true

/-- What is computed for some targets: these, and what is stale below them. -/
theorem mem_withStalePrecedents :
    field ∈ engine.withStalePrecedents targets ↔
      ∃ t ∈ targets, ReflTransGen engine.ReadsStale t field := by
  have hnext : Graph.Leads (fun field => (engine.graph.precedentsOf field).filter engine.isStale) =
      engine.ReadsStale := by
    funext u v
    exact propext List.mem_filter
  unfold withStalePrecedents
  rw [Graph.mem_reach (fun _ ht => List.mem_append_left _ ht) fun _ _ _ hv =>
    List.mem_append_right _ (Graph.precedent_mem_names (List.mem_of_mem_filter hv)), hnext]
  rfl

theorem target_mem_within (h : field ∈ targets) : field ∈ engine.withStalePrecedents targets :=
  mem_withStalePrecedents.2 ⟨field, h, .refl⟩

theorem mem_within_of_stale (h : field ∈ engine.withStalePrecedents targets)
    (hreads : engine.graph.Reads field other) (hstale : engine.isStale other = true) :
    other ∈ engine.withStalePrecedents targets := by
  obtain ⟨t, ht, hway⟩ := mem_withStalePrecedents.1 h
  exact mem_withStalePrecedents.2 ⟨t, ht, hway.tail ⟨hreads, hstale⟩⟩

theorem target_or_stale (h : field ∈ engine.withStalePrecedents targets) :
    field ∈ targets ∨ engine.isStale field = true := by
  obtain ⟨t, ht, hway⟩ := mem_withStalePrecedents.1 h
  cases hway with
  | refl => exact .inl ht
  | tail _ hstep => exact .inr hstep.2

/-! ## Progress -/

theorem advance_eq {fault? : Option Fault} {p : Progress δ} {result : Result} {next : Engine δ}
    (hstep : p.engine.computeField fault? field = (result, next)) :
    advance targets fault? p field =
      ⟨next, if field ∈ targets then p.results.insert field result else p.results,
        if field ∈ targets ∧ p.engine.known field = none then p.fresh ++ [field] else p.fresh⟩ := by
  unfold advance
  rw [hstep, state_beq_dirty]
  by_cases ht : field ∈ targets
  · cases hknown : p.engine.known field <;> simp [ht, hknown]
  · simp [ht]

/-- A field is on a circle of a set. -/
def Knot (engine : Engine δ) (within : NameSet) (field : String) : Prop :=
  TransGen (engine.graph.ReadsWithin within) field field

/-! ## Turns -/

/-- It is the turn of a field of a set to be computed: it is on a circle, and gets the fault
of its group, or it is read, and all that it reads inside the set is done. -/
inductive Turn (engine : Engine δ) (within : NameSet) (done : List String) :
    Option Fault → String → Prop
  | circle {group : List String} {field : String} :
      group ∈ engine.graph.components within → engine.graph.isCyclic group = true →
      field ∈ group → field ∈ within → field ∉ done → engine.Knot within field →
      Turn engine within done (some (groupFault group)) field
  | read {field : String} :
      field ∈ within → field ∉ done → ¬ engine.Knot within field →
      (∀ g ∈ within, engine.graph.Reads field g → g ∈ done) →
      Turn engine within done none field

omit [Host δ] in
theorem Turn.inside {done : List String} {fault? : Option Fault}
    (h : engine.Turn within done fault? field) : field ∈ within := by
  cases h with
  | circle _ _ _ hin _ _ => exact hin
  | read hin _ _ _ => exact hin

omit [Host δ] in
/-- When a group is next, it is the turn of all its fields that are not done yet. -/
theorem turn_of_nextGroup {done done' group : List String}
    (hgroup : group ∈ engine.graph.components within)
    (hnext : engine.graph.NextGroup within done group) (hdone : done ⊆ done')
    (hfield : field ∈ group) (hnew : field ∉ done') :
    engine.Turn within done'
      (if engine.graph.isCyclic group then some (groupFault group) else none) field := by
  have hin := hnext.inside field hfield
  have hiff := hnext.isCyclic_iff hfield
  cases hcyclic : engine.graph.isCyclic group with
  | true => exact .circle hgroup hcyclic hfield hin hnew (hiff.1 hcyclic)
  | false =>
    have hknot : ¬ engine.Knot within field := fun hk => by
      rw [hiff.2 hk] at hcyclic
      exact Bool.noConfusion hcyclic
    have hgroup : group = [field] := by
      match group, hfield, hcyclic with
      | [f], hfield, _ => rw [List.mem_singleton.1 hfield]
      | f :: g :: rest, _, hno => simp [Graph.isCyclic] at hno
    refine .read hin hnew hknot fun g hg hreads => ?_
    rcases hnext.ready field hfield g hg hreads with hself | hready
    · rw [hgroup, List.mem_singleton] at hself
      exact absurd (.single ⟨hin, hin, hself ▸ hreads⟩) hknot
    · exact hdone hready

theorem graph_advance (targets : NameSet) (fault? : Option Fault) (p : Progress δ)
    (field : String) : (advance targets fault? p field).engine.graph = p.engine.graph := by
  rw [advance_eq (show p.engine.computeField fault? field = (_, _) from rfl)]
  cases fault? with
  | none => rfl
  | some fault => rfl

theorem graph_advanceGroup (targets : NameSet) (p : Progress δ) (group : List String) :
    (advanceGroup targets p group).engine.graph = p.engine.graph :=
  List.foldlRecOn (motive := fun q : Progress δ => q.engine.graph = p.engine.graph) group _ rfl
    fun _ hq f _ => (graph_advance targets _ _ f).trans hq

section

variable {motive : List String → Progress δ → Prop}

/-- The fields of a group are computed one after the other. -/
theorem foldl_turns {fault? : Option Fault} {fields done : List String} {p : Progress δ}
    (hturn : ∀ done' f, done ⊆ done' → f ∈ fields → f ∉ done' → engine.Turn within done' fault? f)
    (hfresh : ∀ f ∈ fields, f ∉ done) (hnodup : fields.Nodup)
    (step : ∀ done p fault? field, engine.Turn within done fault? field → motive done p →
      motive (field :: done) (advance targets fault? p field)) (h : motive done p) :
    motive (fields.reverse ++ done) (fields.foldl (advance targets fault?) p) := by
  induction fields generalizing done p with
  | nil => exact h
  | cons f rest ih =>
    obtain ⟨hnot, hnodup⟩ := List.nodup_cons.1 hnodup
    have hf := hfresh f List.mem_cons_self
    rw [List.reverse_cons, List.append_assoc, List.singleton_append, List.foldl_cons]
    refine ih (fun done' g hsub hg hnew => ?_) (fun g hg => ?_) hnodup
      (step done p fault? f (hturn done f (List.Subset.refl done) List.mem_cons_self hf) h)
    · exact hturn done' g (List.subset_of_cons_subset hsub) (List.mem_cons_of_mem _ hg) hnew
    · rw [List.mem_cons, not_or]
      exact ⟨fun he => hnot (he ▸ hg), hfresh g (List.mem_cons_of_mem _ hg)⟩

theorem foldl_groups {done done' : List String} {groups : List (List String)} {p : Progress δ}
    (hgroups : ∀ group ∈ groups, group ∈ engine.graph.components within)
    (hordered : engine.graph.Ordered within done groups) (hdone : ∀ f, f ∈ done' ↔ f ∈ done)
    (hgraph : p.engine.graph = engine.graph)
    (step : ∀ done p fault? field, engine.Turn within done fault? field → motive done p →
      motive (field :: done) (advance targets fault? p field)) (h : motive done' p) :
    ∃ done'', (∀ f, f ∈ done'' ↔ f ∈ groups.flatten ∨ f ∈ done) ∧
      motive done'' (groups.foldl (advanceGroup targets) p) := by
  induction groups generalizing done done' p with
  | nil => exact ⟨done', by simpa using hdone, h⟩
  | cons group rest ih =>
    obtain ⟨hnext, hordered⟩ := hordered
    obtain ⟨hgroup, hgroups⟩ := List.forall_mem_cons.1 hgroups
    rw [List.foldl_cons]
    -- the fields that are done may be listed in another order than the groups came
    have hturn : ∀ done'' f, done' ⊆ done'' → f ∈ group → f ∉ done'' →
        engine.Turn within done''
          (if p.engine.graph.isCyclic group then some (groupFault group) else none) f := by
      rw [hgraph]
      intro done'' f hsub hf hnew
      exact turn_of_nextGroup hgroup hnext (fun g hg => hsub ((hdone g).2 hg)) hf hnew
    have hstep : motive (group.reverse ++ done') (advanceGroup targets p group) :=
      foldl_turns hturn (fun f hf hd => hnext.fresh f hf ((hdone f).1 hd)) hnext.nodup step h
    have hgraph' := (graph_advanceGroup targets p group).trans hgraph
    obtain ⟨done'', hdone'', h⟩ := ih hgroups hordered
      (fun f => by simp only [List.mem_append, List.mem_reverse, hdone]) hgraph' hstep
    refine ⟨done'', fun f => ?_, h⟩
    rw [hdone'', List.flatten_cons, List.mem_append, List.mem_append]
    tauto

/-- What holds at the start of a computation in order, and again after each turn of a field,
holds at its end, when all fields have had their turn. -/
theorem computeInOrder_induct (engine : Engine δ) (targets : NameSet)
    (start : motive [] ⟨engine, .empty, []⟩)
    (step : ∀ done p fault? field,
      engine.Turn (engine.withStalePrecedents targets) done fault? field → motive done p →
      motive (field :: done) (advance targets fault? p field)) :
    ∃ done, (∀ f, f ∈ done ↔ f ∈ engine.withStalePrecedents targets) ∧
      motive done (engine.computeInOrder targets) := by
  -- beside the motive, all that is done was to be computed
  obtain ⟨done, hdone, hinside, h⟩ := foldl_groups
    (motive := fun done p => (∀ f ∈ done, f ∈ engine.withStalePrecedents targets) ∧ motive done p)
    (fun _ hgroup => hgroup) (Graph.ordered_components _ _) (fun _ => Iff.rfl) rfl
    (fun done p fault? field hturn hp =>
      ⟨List.forall_mem_cons.2 ⟨hturn.inside, hp.1⟩, step done p fault? field hturn hp.2⟩)
    ⟨fun _ hf => absurd hf List.not_mem_nil, start⟩
  refine ⟨done, fun f => ⟨hinside f, fun hf => ?_⟩, h⟩
  obtain ⟨group, hgroup, hmem⟩ := Graph.exists_component hf
  exact (hdone f).2 (.inl (List.mem_flatten.2 ⟨group, hgroup, hmem⟩))

end

/-! ## Schedules -/

/-- The state of a computation of which some fields are done, each after the fields
of the set that it reads, unless it is on a circle. -/
structure Scheduled (engine : Engine δ) (targets within : NameSet) (done : List String)
    (p : Progress δ) : Prop where
  frame : ∃ memo formulas, p.engine = { engine with memo, formulas }
  formulas : p.engine.formulas.Faithful engine.config.maxDepth
  inside : ∀ f ∈ done, f ∈ within
  outside : ∀ f, f ∉ done → p.engine.known f = engine.known f
  /-- A field on a circle has the fault of its group. -/
  knotted : ∀ f ∈ done, engine.Knot within f → ∃ group ∈ engine.graph.components within,
    f ∈ group ∧ p.engine.known f = some (.error (groupFault group))
  kept : ∀ f ∈ done, ¬ engine.Knot within f → ∀ r, engine.known f = some r →
    p.engine.known f = some r
  computed : ∀ f ∈ done, ¬ engine.Knot within f → engine.known f = none →
    ∃ text, Host.formula? engine.host f = some text ∧
      (∀ g ∈ within, engine.graph.Reads f g → g ∈ done) ∧
      p.engine.known f = some (p.engine.resultOf text)
  results : ∀ f, p.results.find? f = if f ∈ done ∧ f ∈ targets then p.engine.known f else none
  fresh : ∀ f, f ∈ p.fresh ↔ f ∈ done ∧ f ∈ targets ∧ engine.known f = none
  nodup : p.fresh.Nodup

theorem scheduled_start (hformulas : engine.formulas.Faithful engine.config.maxDepth)
    (targets within : NameSet) : engine.Scheduled targets within [] ⟨engine, .empty, []⟩ where
  frame := ⟨_, _, rfl⟩
  formulas := hformulas
  inside _ hf := absurd hf List.not_mem_nil
  outside _ _ := rfl
  knotted _ hf := absurd hf List.not_mem_nil
  kept _ hf := absurd hf List.not_mem_nil
  computed _ hf := absurd hf List.not_mem_nil
  results f := by simp
  fresh f := by simp
  nodup := List.nodup_nil

namespace Scheduled

variable {done : List String} {p : Progress δ}

theorem host_eq (h : engine.Scheduled targets within done p) : p.engine.host = engine.host := by
  obtain ⟨memo, formulas, heq⟩ := h.frame
  rw [heq]

theorem graph_eq (h : engine.Scheduled targets within done p) : p.engine.graph = engine.graph := by
  obtain ⟨memo, formulas, heq⟩ := h.frame
  rw [heq]

theorem config_eq (h : engine.Scheduled targets within done p) :
    p.engine.config = engine.config := by
  obtain ⟨memo, formulas, heq⟩ := h.frame
  rw [heq]

/-- What is done is remembered. -/
theorem isSome_of_done (h : engine.Scheduled targets within done p) (hf : field ∈ done) :
    (p.engine.known field).isSome := by
  by_cases hknot : engine.Knot within field
  · obtain ⟨group, -, -, hfind⟩ := h.knotted field hf hknot
    rw [hfind]
    rfl
  · cases hknown : engine.known field with
    | some r =>
      rw [h.kept field hf hknot r hknown]
      rfl
    | none =>
      obtain ⟨text, -, -, hfind⟩ := h.computed field hf hknot hknown
      rw [hfind]
      rfl

/-- Of a target that was not remembered a result is returned. -/
theorem isSome_of_fresh (h : engine.Scheduled targets within done p) :
    ∀ f ∈ p.fresh, (p.results.find? f).isSome := by
  intro f hf
  obtain ⟨hdone, htarget, -⟩ := (h.fresh f).1 hf
  rw [h.results, if_pos ⟨hdone, htarget⟩]
  exact h.isSome_of_done hdone

/-- One more field is done when its entry is what a field of its sort has to have
and all others stay as they were. -/
theorem advance_of_entry {fault? : Option Fault} {result : Result} {memo : Memo}
    {formulas : Formulas} (h : engine.Scheduled targets within done p)
    (hfield : field ∈ within) (hnew : field ∉ done)
    (hstep : p.engine.computeField fault? field = (result, { p.engine with memo, formulas }))
    (hformulas : formulas.Faithful engine.config.maxDepth)
    (hresults : ∀ f, memo.results.find? f = if field = f then some result else p.engine.known f)
    (hknotted : engine.Knot within field → ∃ group ∈ engine.graph.components within,
      field ∈ group ∧ result = .error (groupFault group))
    (hkept : ¬ engine.Knot within field → ∀ r, engine.known field = some r → result = r)
    (hcomputed : ¬ engine.Knot within field → engine.known field = none →
      ∃ text, Host.formula? engine.host field = some text ∧
        (∀ g ∈ within, engine.graph.Reads field g → g ∈ done) ∧
        result = p.engine.resultOf text)
    (hinStep : engine.InStep) :
    engine.Scheduled targets within (field :: done) (advance targets fault? p field) := by
  have hne : ∀ f ∈ done, field ≠ f := fun f hf he => hnew (he ▸ hf)
  -- no formula that is done reads the field, so its result is what it was
  have hresultOf : ∀ f text, Host.formula? engine.host f = some text →
      (∀ g ∈ within, engine.graph.Reads f g → g ∈ done) →
      Engine.resultOf { p.engine with memo, formulas } text = p.engine.resultOf text := by
    intro f text htext hreads
    refine formulaResult_congr fun g hg => .of_known fun _ => ?_
    have hg' : g ∈ references engine.config.maxDepth text := by
      rw [← h.config_eq]
      exact hg
    refine (hresults g).trans (if_neg fun he => hnew ?_)
    exact he ▸ hreads g (he ▸ hfield) (hinStep.reads_iff.2 ⟨text, htext, hg'⟩)
  rw [advance_eq hstep, h.outside field hnew]
  have hknown : ∀ f, Engine.known { p.engine with memo, formulas } f =
      if field = f then some result else p.engine.known f := hresults
  obtain ⟨memo', formulas', hframe⟩ := h.frame
  refine ⟨⟨memo, formulas, by rw [hframe]⟩, hformulas,
    fun f hf => ?_, fun f hf => ?_, fun f hf hknot => ?_, fun f hf hknot r hr => ?_,
    fun f hf hknot hnone => ?_, fun f => ?_, fun f => ?_, ?_⟩
  · rcases List.mem_cons.1 hf with rfl | hf
    · exact hfield
    · exact h.inside f hf
  · rw [List.mem_cons, not_or] at hf
    rw [hknown, if_neg (Ne.symm hf.1)]
    exact h.outside f hf.2
  · rcases List.mem_cons.1 hf with rfl | hf
    · obtain ⟨group, hgroup, hmem, rfl⟩ := hknotted hknot
      exact ⟨group, hgroup, hmem, by rw [hknown, if_pos rfl]⟩
    · rw [hknown, if_neg (hne f hf)]
      exact h.knotted f hf hknot
  · rcases List.mem_cons.1 hf with rfl | hf
    · rw [hknown, if_pos rfl, hkept hknot r hr]
    · rw [hknown, if_neg (hne f hf)]
      exact h.kept f hf hknot r hr
  · rcases List.mem_cons.1 hf with rfl | hf
    · obtain ⟨text, htext, hreads, rfl⟩ := hcomputed hknot hnone
      refine ⟨text, htext, fun g hg hr => List.mem_cons_of_mem _ (hreads g hg hr), ?_⟩
      rw [hknown, if_pos rfl, hresultOf f text htext hreads]
    · obtain ⟨text, htext, hreads, hfind⟩ := h.computed f hf hknot hnone
      refine ⟨text, htext, fun g hg hr => List.mem_cons_of_mem _ (hreads g hg hr), ?_⟩
      rw [hknown, if_neg (hne f hf), hresultOf f text htext hreads, hfind]
  · rw [hknown]
    by_cases hf : field = f
    · subst hf
      by_cases ht : field ∈ targets
      · simp [ht, NameMap.find?_insert]
      · simp [ht, h.results]
    · by_cases ht : field ∈ targets
      · simp [ht, NameMap.find?_insert, hf, Ne.symm hf, h.results]
      · simp [ht, hf, Ne.symm hf, h.results]
  · dsimp only
    rw [List.mem_cons]
    split
    next ht =>
      rw [List.mem_append, List.mem_singleton, h.fresh]
      grind
    next ht =>
      rw [h.fresh]
      grind
  · have hfresh : field ∉ p.fresh := fun hf => hnew ((h.fresh field).1 hf).1
    dsimp only
    split
    · refine List.nodup_append.2 ⟨h.nodup, by simp, ?_⟩
      rintro a ha b hb rfl
      exact hfresh (List.mem_singleton.1 hb ▸ ha)
    · exact h.nodup

theorem congr {done' : List String} (h : engine.Scheduled targets within done p)
    (hdone : ∀ f, f ∈ done ↔ f ∈ done') : engine.Scheduled targets within done' p where
  frame := h.frame
  formulas := h.formulas
  inside f hf := h.inside f ((hdone f).2 hf)
  outside f hf := h.outside f fun h => hf ((hdone f).1 h)
  knotted f hf := h.knotted f ((hdone f).2 hf)
  kept f hf := h.kept f ((hdone f).2 hf)
  computed f hf hknot hnone := by
    obtain ⟨text, htext, hreads, hfind⟩ := h.computed f ((hdone f).2 hf) hknot hnone
    exact ⟨text, htext, fun g hg hr => (hdone g).1 (hreads g hg hr), hfind⟩
  results f := by simp only [h.results, hdone]
  fresh f := by simp only [h.fresh, hdone]
  nodup := h.nodup

/-! ## One more field -/

/-- What a field reads is remembered when it is its turn to be read. -/
theorem isSome_of_reads (hinStep : engine.InStep)
    (hready : ∀ g ∈ within, engine.graph.Reads field g → g ∈ done)
    (hstale : ∀ g, engine.graph.Reads field g → engine.isStale g = true → g ∈ within)
    (h : engine.Scheduled targets within done p)
    (htext : Host.formula? engine.host field = some text) :
    ∀ g ∈ references engine.config.maxDepth text,
      (Host.formula? engine.host g).isSome → (p.engine.known g).isSome := by
  intro g hg hformula
  have hreads : engine.graph.Reads field g := hinStep.reads_iff.2 ⟨text, htext, hg⟩
  by_cases hgin : g ∈ within
  · exact h.isSome_of_done (hready g hgin hreads)
  · rw [h.outside g fun hd => hgin (h.inside g hd), Option.isSome_iff_ne_none]
    exact fun hnone => hgin (hstale g hreads (isStale_iff.2 ⟨hnone, hformula⟩))

/-- A field on a circle gets the fault of its group. -/
theorem advance_circle {group : List String} (hinStep : engine.InStep)
    (hgroup : group ∈ engine.graph.components within) (hmem : field ∈ group)
    (hin : field ∈ within) (hnew : field ∉ done) (hknot : engine.Knot within field)
    (h : engine.Scheduled targets within done p) :
    engine.Scheduled targets within (field :: done)
      (Engine.advance targets (some (groupFault group)) p field) :=
  h.advance_of_entry hin hnew rfl h.formulas (fun _ => Memo.find?_store ..)
    (fun _ => ⟨group, hgroup, hmem, rfl⟩) (fun hno => absurd hknot hno)
    (fun hno => absurd hknot hno) hinStep

/-- A field off the circles whose precedents are done is read, which computes it
only if it is stale. -/
theorem advance_read (hinStep : engine.InStep) (hroom : 1 ≤ engine.config.maxReferenceDepth)
    (hformula : (Host.formula? engine.host field).isSome)
    (hin : field ∈ within) (hnew : field ∉ done) (hknot : ¬ engine.Knot within field)
    (hready : ∀ g ∈ within, engine.graph.Reads field g → g ∈ done)
    (hstale : ∀ g, engine.graph.Reads field g → engine.isStale g = true → g ∈ within)
    (h : engine.Scheduled targets within done p) :
    engine.Scheduled targets within (field :: done) (Engine.advance targets none p field) := by
  have hknown := h.outside field hnew
  cases hclean : engine.known field with
  | some r =>
    rw [hclean] at hknown
    obtain ⟨memo, hread, hresults, -⟩ := read_clean hknown
    refine h.advance_of_entry hin hnew hread h.formulas (fun f => ?_)
      (fun hk => absurd hk hknot) (fun _ r' hr' => ?_) (fun _ hnone => ?_) hinStep
    · rw [hresults]
      split
      next he => exact he ▸ hknown
      next => rfl
    · exact Option.some.inj (hclean.symm.trans hr')
    · simp [hclean] at hnone
  | none =>
    rw [hclean] at hknown
    obtain ⟨text, htext⟩ := Option.isSome_iff_exists.1 hformula
    have hall := isSome_of_reads hinStep hready hstale h htext
    rw [← h.config_eq, ← h.host_eq] at hall
    obtain ⟨memo, formulas, hread, hresults, hformulas, -⟩ := read_ready
      (h.config_eq ▸ h.formulas) (h.config_eq ▸ hroom) (h.host_eq ▸ htext) hknown hall
    refine h.advance_of_entry hin hnew hread (h.config_eq ▸ hformulas) (fun f => ?_)
      (fun hk => absurd hk hknot) (fun _ r hr => ?_) (fun _ _ => ⟨text, htext, hready, rfl⟩) hinStep
    · rw [hresults, NameMap.find?_insert]
    · simp [hclean] at hr

/-- One more field is done after its turn. -/
theorem advance {fault? : Option Fault} (hinStep : engine.InStep)
    (hroom : 1 ≤ engine.config.maxReferenceDepth)
    (hformula : ∀ f ∈ within, (Host.formula? engine.host f).isSome)
    (hstale : ∀ f ∈ within, ∀ g, engine.graph.Reads f g → engine.isStale g = true → g ∈ within)
    (hturn : engine.Turn within done fault? field)
    (h : engine.Scheduled targets within done p) :
    engine.Scheduled targets within (field :: done) (Engine.advance targets fault? p field) := by
  cases hturn with
  | circle hgroup _ hmem hin hnew hknot => exact h.advance_circle hinStep hgroup hmem hin hnew hknot
  | read hin hnew hknot hready =>
    exact h.advance_read hinStep hroom (hformula field hin) hin hnew hknot hready (hstale field hin)

end Scheduled

/-- All that is computed for targets that have formulas has a formula. -/
theorem formula_of_mem_within (htargets : ∀ f ∈ targets, (Host.formula? engine.host f).isSome) :
    ∀ f ∈ engine.withStalePrecedents targets, (Host.formula? engine.host f).isSome := by
  intro f hf
  rcases target_or_stale hf with ht | hs
  · exact htargets f ht
  · exact (isStale_iff.1 hs).2

theorem formula_of_singleton (hformula : (Host.formula? engine.host field).isSome) :
    ∀ f ∈ NameSet.ofList [field], (Host.formula? engine.host f).isSome := by
  intro f hf
  rw [NameSet.mem_ofList, List.mem_singleton] at hf
  exact hf ▸ hformula

/-- In an engine that is in step, targets that have formulas are computed in the
order of their references: nothing is computed before what it reads. -/
theorem scheduled_computeInOrder (hinStep : engine.InStep)
    (hroom : 1 ≤ engine.config.maxReferenceDepth)
    (targets : NameSet) (htargets : ∀ f ∈ targets, (Host.formula? engine.host f).isSome) :
    engine.Scheduled targets (engine.withStalePrecedents targets)
      (engine.withStalePrecedents targets).names (engine.computeInOrder targets) := by
  obtain ⟨done, hdone, h⟩ := computeInOrder_induct engine targets
    (motive := engine.Scheduled targets (engine.withStalePrecedents targets))
    (scheduled_start hinStep.formulas targets (engine.withStalePrecedents targets))
    (fun _ _ _ _ hturn h => h.advance hinStep hroom (formula_of_mem_within htargets)
      (fun _ hf _ hreads hs => mem_within_of_stale hf hreads hs) hturn)
  exact h.congr hdone

end Formulary.Engine
