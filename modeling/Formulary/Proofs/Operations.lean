/-
  What the operations of an engine keep.

  * `Engine.Pushed`: a host after results were pushed into it;
  * `Engine.recompute_eq`: a recomputation computes its targets in order and pushes
    those that were stale;
  * `Engine.Written`, `Engine.update_eq`: what a write forgets, and computes anew;
  * `Engine.Sound`: an engine that is in step and up to date;
  * `Engine.Sound.recompute`, `Engine.Sound.value`, `Engine.Sound.react`: the operations
    keep engines sound, and return what is remembered afterwards.
-/
import Formulary.Proofs.Settled

namespace Formulary.Engine

variable {δ : Type} [Owner δ] {engine engine' : Engine δ} {field : String}

/-! ## Pushing -/

/-- A host after the results of some fields were pushed into it. -/
structure Pushed (host : δ) (results : Results) (fresh : List String) (host' : δ) : Prop where
  declared : ∀ f, Host.Declared host' host f
  elsewhere : ∀ f, f ∉ fresh → Host.value? host' f = Host.value? host f
  shown : ∀ f ∈ fresh, ∀ r, results.find? f = some r →
    Host.value? host' f = some (Value.shown (Host.kind host f) r)

theorem foldl_push (results : Results) (fresh : List String) (engine : Engine δ)
    (hresults : ∀ f ∈ fresh, (results.find? f).isSome)
    (hformula : ∀ f ∈ fresh, (Host.formula? engine.host f).isSome) :
    ∃ host, fresh.foldl (push results) engine = { engine with host } ∧
      Pushed engine.host results fresh host := by
  induction fresh generalizing engine with
  | nil =>
    refine ⟨engine.host, rfl, fun f => .refl _ f, fun f _ => rfl, fun f hf => ?_⟩
    exact absurd hf List.not_mem_nil
  | cons field rest ih =>
    obtain ⟨r, hr⟩ := Option.isSome_iff_exists.1 (hresults field List.mem_cons_self)
    have hown := hformula field List.mem_cons_self
    have hstep : push results engine field = { engine with
        host := Host.push engine.host field (Value.shown (Host.kind engine.host field) r) } := by
      unfold push
      rw [hr]
    have hdeclared := Owner.declared_push engine.host field
      (Value.shown (Host.kind engine.host field) r)
    have hvalue := fun g => Owner.value?_push engine.host field
      (Value.shown (Host.kind engine.host field) r) g hown
    rw [List.foldl_cons, hstep]
    generalize Host.push engine.host field (Value.shown (Host.kind engine.host field) r) = host₁
      at hdeclared hvalue ⊢
    obtain ⟨host₂, heq, hpushed⟩ := ih { engine with host := host₁ }
      (fun f hf => hresults f (List.mem_cons_of_mem _ hf))
      (fun f hf => (hdeclared f).formula ▸ hformula f (List.mem_cons_of_mem _ hf))
    refine ⟨host₂, heq, fun f => (hpushed.declared f).trans (hdeclared f),
      fun f hf => ?_, fun f hf s hs => ?_⟩
    · rw [List.mem_cons, not_or] at hf
      rw [hpushed.elsewhere f hf.2, hvalue, if_neg (Ne.symm hf.1)]
    · by_cases hrest : f ∈ rest
      · rw [hpushed.shown f hrest s hs, (hdeclared f).kind]
      · obtain rfl := (List.mem_cons.1 hf).resolve_right hrest
        obtain rfl := Option.some.inj (hr.symm.trans hs)
        rw [hpushed.elsewhere f hrest, hvalue, if_pos rfl]

/-! ## Sound engines -/

/-- An engine in step with its host whose remembered results are up to date. -/
structure Sound (engine : Engine δ) : Prop where
  inStep : engine.InStep
  settled : engine.Settled

/-- An engine that forgets all results is sound. -/
theorem InStep.sound_clear (h : engine.InStep) :
    Sound { engine with memo := engine.memo.clear } :=
  ⟨h.with_memo _, settled_of_empty fun _ => rfl⟩

/-- A change of some fields, after which the results of all fields that depend on them
are forgotten. -/
theorem Sound.forget {changed : List String} (h : engine.Sound) (hinStep : engine'.InStep)
    (hforgot : Forgotten changed engine engine') : engine'.Sound :=
  ⟨hinStep, h.settled.forget h.inStep hinStep hforgot⟩

/-- Values of formula fields matter to no result. -/
theorem Sound.push {host : δ} (h : engine.Sound)
    (hdeclared : ∀ f, Host.Declared host engine.host f)
    (hstored : ∀ f, Host.formula? engine.host f = none →
      Host.value? host f = Host.value? engine.host f) : Sound { engine with host } := by
  have hforgot : Forgotten [] engine { engine with host } := by
    refine ⟨rfl, rfl, fun f _ => (hdeclared f).symm, fun f _ hf => (hstored f hf).symm, fun f => ?_⟩
    rw [if_neg]
    exact fun hf => by simpa using Graph.mem_affected.1 hf
  refine h.forget ⟨h.inStep.mirrored, fun f => ?_, h.inStep.formulas⟩ hforgot
  rw [(hdeclared f).formula]
  exact h.inStep.precedents f

/-! ## Computing -/

/-- The fields with formulas among some fields. -/
def targetsOf (engine : Engine δ) (fields : NameSet) : NameSet :=
  NameSet.ofList (fields.names.filter fun field => (Host.formula? engine.host field).isSome)

theorem mem_targetsOf {fields : NameSet} :
    field ∈ engine.targetsOf fields ↔
      field ∈ fields ∧ (Host.formula? engine.host field).isSome := by
  rw [targetsOf, NameSet.mem_ofList, List.mem_filter, NameSet.mem_names]

theorem recompute_unfold (engine : Engine δ) (fields : NameSet) :
    engine.recompute fields =
      ((engine.computeInOrder (engine.targetsOf fields)).results,
        (engine.computeInOrder (engine.targetsOf fields)).fresh.foldl
          (push (engine.computeInOrder (engine.targetsOf fields)).results)
          (engine.computeInOrder (engine.targetsOf fields)).engine) := rfl

omit [Owner δ] in
/-- A computation in order leaves the host, the limits and the time as they are, and returns
results of its targets. -/
theorem frame_computeInOrder [Host δ] (engine : Engine δ) (targets : NameSet) :
    (engine.computeInOrder targets).engine.host = engine.host ∧
      (engine.computeInOrder targets).engine.config = engine.config ∧
      (engine.computeInOrder targets).engine.clock = engine.clock ∧
      (∀ f ∈ (engine.computeInOrder targets).fresh, f ∈ targets) ∧
      ∀ f, ((engine.computeInOrder targets).results.find? f).isSome → f ∈ targets := by
  obtain ⟨-, -, h⟩ := computeInOrder_induct engine targets
    (motive := fun _ p => p.engine.host = engine.host ∧ p.engine.config = engine.config ∧
      p.engine.clock = engine.clock ∧ (∀ f ∈ p.fresh, f ∈ targets) ∧
      ∀ f, (p.results.find? f).isSome → f ∈ targets)
    ⟨rfl, rfl, rfl, fun _ hf => absurd hf List.not_mem_nil, fun f hf => by simp at hf⟩
    fun _ p fault? field _ ⟨hhost, hconfig, hclock, hfresh, hresults⟩ => by
      have hframe : (p.engine.computeField fault? field).2.host = p.engine.host ∧
          (p.engine.computeField fault? field).2.config = p.engine.config ∧
          (p.engine.computeField fault? field).2.clock = p.engine.clock := by
        cases fault? with
        | none => exact ⟨rfl, rfl, rfl⟩
        | some fault => exact ⟨rfl, rfl, rfl⟩
      rw [advance_eq (show p.engine.computeField fault? field = (_, _) from rfl)]
      refine ⟨hframe.1.trans hhost, hframe.2.1.trans hconfig, hframe.2.2.trans hclock,
        fun f hf => ?_, fun f hf => ?_⟩
      · dsimp only at hf
        split at hf
        next ht =>
          rcases List.mem_append.1 hf with hf | hf
          · exact hfresh f hf
          · exact List.mem_singleton.1 hf ▸ ht.1
        next => exact hfresh f hf
      · dsimp only at hf
        split at hf
        next ht =>
          rw [NameMap.find?_insert] at hf
          split at hf
          next he => exact he ▸ ht
          next => exact hresults f hf
        next => exact hresults f hf
  exact h

/-- A recomputation computes its targets in order, and pushes those that were stale. -/
theorem recompute_eq (hinStep : engine.InStep) (hroom : 1 ≤ engine.config.maxReferenceDepth)
    (fields : NameSet) :
    ∃ p host, engine.recompute fields = (p.results, { p.engine with host }) ∧
      p = engine.computeInOrder (engine.targetsOf fields) ∧
      engine.Scheduled (engine.targetsOf fields)
        (engine.withStalePrecedents (engine.targetsOf fields))
        (engine.withStalePrecedents (engine.targetsOf fields)).names p ∧
      Pushed engine.host p.results p.fresh host := by
  have hp := scheduled_computeInOrder hinStep hroom (engine.targetsOf fields)
    fun f hf => (mem_targetsOf.1 hf).2
  obtain ⟨host, heq, hpushed⟩ := foldl_push
    (engine.computeInOrder (engine.targetsOf fields)).results
    (engine.computeInOrder (engine.targetsOf fields)).fresh
    (engine.computeInOrder (engine.targetsOf fields)).engine
    hp.isSome_of_fresh
    (fun f hf => by
      rw [hp.host_eq]
      exact (mem_targetsOf.1 ((hp.fresh f).1 hf).2.1).2)
  rw [hp.host_eq] at hpushed
  exact ⟨_, host, by rw [recompute_unfold, heq], rfl, hp, hpushed⟩

/-- What holds after a computation in order, and again after a push of a value of a target,
holds after a recomputation. -/
theorem recompute_induct {motive : Engine δ → Prop} (engine : Engine δ) (fields : NameSet)
    (start : motive (engine.computeInOrder (engine.targetsOf fields)).engine)
    (step : ∀ e f v, f ∈ engine.targetsOf fields → motive e →
      motive { e with host := Host.push e.host f v }) :
    motive (engine.recompute fields).2 := by
  obtain ⟨-, -, -, hfresh, -⟩ := frame_computeInOrder engine (engine.targetsOf fields)
  rw [recompute_unfold]
  refine List.foldlRecOn _ _ start fun e he f hf => ?_
  unfold push
  cases (engine.computeInOrder (engine.targetsOf fields)).results.find? f with
  | none => exact he
  | some r => exact step e f _ (hfresh f hf) he

/-- A recomputation returns results of its targets only. -/
theorem target_of_results {fields : NameSet}
    (h : ((engine.recompute fields).1.find? field).isSome) : field ∈ engine.targetsOf fields :=
  (frame_computeInOrder engine (engine.targetsOf fields)).2.2.2.2 field h

/-- Reading a formula field computes it in order and returns what is remembered. -/
theorem value_eq (hinStep : engine.InStep) (hroom : 1 ≤ engine.config.maxReferenceDepth)
    (hformula : (Host.formula? engine.host field).isSome) :
    ∃ p r, engine.value field = (r, p.engine) ∧ p.engine.known field = some r ∧
      p = engine.computeInOrder (NameSet.ofList [field]) ∧
      engine.Scheduled (NameSet.ofList [field])
        (engine.withStalePrecedents (NameSet.ofList [field]))
        (engine.withStalePrecedents (NameSet.ofList [field])).names p := by
  have hp := scheduled_computeInOrder hinStep hroom (NameSet.ofList [field])
    (formula_of_singleton hformula)
  have htarget : field ∈ NameSet.ofList [field] := by simp
  have hdone : field ∈ engine.withStalePrecedents _ := target_mem_within htarget
  obtain ⟨r, hr⟩ := Option.isSome_iff_exists.1 (hp.isSome_of_done hdone)
  refine ⟨_, r, ?_, hr, rfl, hp⟩
  obtain ⟨text, htext⟩ := Option.isSome_iff_exists.1 hformula
  have hfind : (engine.computeInOrder (NameSet.ofList [field])).results.find? field = some r := by
    rw [hp.results, if_pos ⟨hdone, htarget⟩, hr]
  unfold value
  simp only [htext, hfind]

theorem value_of_none (hformula : Host.formula? engine.host field = none) :
    (engine.value field).2 = engine := by
  unfold value
  rw [hformula]
  dsimp only
  cases Host.value? engine.host field <;> rfl

/-- A recomputation returns a result of every target, which is then remembered. -/
theorem recompute_target (hinStep : engine.InStep) (hroom : 1 ≤ engine.config.maxReferenceDepth)
    {fields : NameSet} (hfield : field ∈ fields)
    (hformula : (Host.formula? engine.host field).isSome) :
    ∃ r, (engine.recompute fields).1.find? field = some r ∧
      (engine.recompute fields).2.known field = some r := by
  obtain ⟨p, host, heq, -, hp, -⟩ := recompute_eq hinStep hroom fields
  have htarget := mem_targetsOf.2 ⟨hfield, hformula⟩
  have hdone : field ∈ engine.withStalePrecedents _ := target_mem_within htarget
  obtain ⟨r, hr⟩ := Option.isSome_iff_exists.1 (hp.isSome_of_done hdone)
  rw [heq]
  exact ⟨r, by rw [hp.results, if_pos ⟨hdone, htarget⟩, hr], hr⟩

/-- A recomputation changes nothing that formulas look at. -/
theorem recompute_view (engine : Engine δ) (fields : NameSet) :
    engine.SameView (engine.recompute fields).2 := by
  obtain ⟨hhost, hconfig, -⟩ := frame_computeInOrder engine (engine.targetsOf fields)
  refine recompute_induct (motive := fun e => engine.SameView e) engine fields ?_
    fun e f v hf h => ?_
  · refine ⟨congrArg Config.maxDepth hconfig.symm, fun f => ?_, fun f _ => ?_⟩
    · rw [hhost]
      exact .refl _ f
    · rw [hhost]
  · have hformula := (mem_targetsOf.1 hf).2
    refine ⟨h.limit, fun g => (h.declared g).trans (Owner.declared_push e.host f v g).symm,
      fun g hg => ?_⟩
    refine (h.stored g hg).trans ?_
    rw [Owner.value?_push e.host f v g ((h.declared f).formula ▸ hformula), if_neg]
    rintro rfl
    rw [hg] at hformula
    exact absurd hformula (by simp)

namespace Sound

theorem scheduled {targets : NameSet} {p : Progress δ} (h : engine.Sound)
    (hp : engine.Scheduled targets (engine.withStalePrecedents targets)
      (engine.withStalePrecedents targets).names p) : p.engine.Sound :=
  ⟨hp.inStep h.inStep, h.settled.scheduled h.inStep hp⟩

/-- A recomputation keeps an engine sound and returns what is then remembered. -/
theorem recompute (h : engine.Sound) (hroom : 1 ≤ engine.config.maxReferenceDepth)
    (fields : NameSet) :
    (engine.recompute fields).2.Sound ∧
      (∀ f r, (engine.recompute fields).1.find? f = some r →
        (engine.recompute fields).2.known f = some r) ∧
      (∀ f, (engine.known f).isSome ∨ f ∈ fields ∧ (Host.formula? engine.host f).isSome →
        ((engine.recompute fields).2.known f).isSome) := by
  obtain ⟨p, host, heq, -, hp, hpushed⟩ := recompute_eq h.inStep hroom fields
  have hview := recompute_view engine fields
  rw [heq] at hview ⊢
  refine ⟨(h.scheduled hp).push ?_ ?_, fun f r hr => ?_, fun f hf => ?_⟩
  · rw [hp.host_eq]
    exact hpushed.declared
  · rw [hp.host_eq]
    exact fun f hf => (hview.stored f hf).symm
  · rw [hp.results] at hr
    split at hr
    · exact hr
    · exact absurd hr (by simp)
  · exact Held.known_after hp (hf.imp_right fun hf => target_mem_within (mem_targetsOf.2 hf))

theorem value (h : engine.Sound) (hroom : 1 ≤ engine.config.maxReferenceDepth) (field : String) :
    (engine.value field).2.Sound ∧ ((Host.formula? engine.host field).isSome →
      (engine.value field).2.known field = some (engine.value field).1) := by
  cases hformula : Host.formula? engine.host field with
  | none =>
    rw [value_of_none hformula]
    exact ⟨h, fun hsome => absurd hsome (by simp)⟩
  | some text =>
    obtain ⟨p, r, heq, hr, -, hp⟩ := value_eq h.inStep hroom
      (Option.isSome_iff_exists.2 ⟨_, hformula⟩)
    rw [heq]
    exact ⟨h.scheduled hp, fun _ => hr⟩

end Sound

/-! ## Changes -/

omit [Owner δ] in
/-- To forget what depends on some fields. -/
theorem invalidate_eq (engine : Engine δ) (seeds : List String) :
    ∃ memo, engine.invalidate seeds = (engine.graph.affected seeds, { engine with memo }) ∧
      ∀ f, memo.results.find? f =
        if f ∈ engine.graph.affected seeds then none else engine.known f := by
  refine ⟨_, rfl, fun f => ?_⟩
  suffices ∀ (names : List String) (m : Memo),
      (names.foldl Memo.forget m).results = names.foldl NameMap.erase m.results by
    rw [this, NameMap.find?_foldl_erase]
    rfl
  intro names
  induction names with
  | nil => exact fun m => rfl
  | cons name rest ih => exact fun m => ih (m.forget name)

/-- Some fields of the host of an engine changed, and the graph is again in step. -/
structure Changed (changed : List String) (engine engine' : Engine δ) : Prop where
  inStep : engine'.InStep
  config : engine'.config = engine.config
  clock : engine'.clock = engine.clock
  memo : engine'.memo = engine.memo
  declared : ∀ f, f ∉ changed → Host.Declared engine.host engine'.host f
  stored : ∀ f, f ∉ changed → Host.value? engine.host f = Host.value? engine'.host f

theorem Changed.refl (hinStep : engine.InStep) (changed : List String) :
    Changed changed engine engine :=
  ⟨hinStep, rfl, rfl, rfl, fun f _ => .refl _ f, fun _ _ => rfl⟩

theorem Changed.forgotten {changed : List String} (h : Changed changed engine engine')
    {memo : Memo} (hmemo : ∀ f, memo.results.find? f =
      if f ∈ engine'.graph.affected changed then none else engine'.known f) :
    Forgotten changed engine { engine' with memo } where
  limit := congrArg Config.maxDepth h.config.symm
  clock := h.clock.symm
  declared := h.declared
  stored f hf _ := h.stored f hf
  known f := by
    refine (hmemo f).trans ?_
    rw [show engine'.known f = engine.known f from congrArg (·.results.find? f) h.memo]

theorem inStep_write (hinStep : engine.InStep) (field : String) (v : Value) :
    Changed [field] engine { engine with host := Host.write engine.host field v } := by
  refine ⟨⟨hinStep.mirrored, fun f => ?_, hinStep.formulas⟩, rfl, rfl, rfl,
    fun f _ => (Owner.declared_write engine.host field v f).symm, fun f hf => ?_⟩
  · rw [(Owner.declared_write engine.host field v f).formula]
    exact hinStep.precedents f
  · exact (Owner.value?_write engine.host field v f (by simpa using hf)).symm

/-- An edit that changes the formula of a field brings an engine out of step, and to
index the field brings it back. -/
theorem changed_formula (hinStep : engine.InStep) (e : Edit) :
    Changed [e.field] engine (index { engine with
      host := Owner.edit engine.host e
      formulas := NameMap.erase engine.formulas e.field } e.field) := by
  have hothers : ∀ f, e.field ≠ f → engine.graph.precedents.find? f =
      (Host.formula? (Owner.edit engine.host e) f).map (references engine.config.maxDepth) := by
    intro f hf
    rw [(Owner.declared_edit engine.host e f (Ne.symm hf)).formula]
    exact hinStep.precedents f
  have hformulas := hinStep.formulas.erase e.field
  have hin : (index { engine with
      host := Owner.edit engine.host e
      formulas := NameMap.erase engine.formulas e.field } e.field).InStep :=
    inStep_index hinStep.mirrored hformulas hothers
  obtain ⟨graph, formulas, heq, -⟩ := index_eq { engine with
    host := Owner.edit engine.host e
    formulas := NameMap.erase engine.formulas e.field } e.field hformulas
  rw [heq] at hin ⊢
  refine ⟨hin, rfl, rfl, rfl, fun f hf => ?_, fun f hf => ?_⟩
  · exact (Owner.declared_edit engine.host e f (by simpa using hf)).symm
  · exact (Owner.value?_edit engine.host e f (by simpa using hf)).symm

theorem changed_remove (hinStep : engine.InStep) (id : String) :
    Changed [id] engine { engine with
      host := Owner.edit engine.host (.remove id)
      graph := engine.graph.remove id
      formulas := NameMap.erase engine.formulas id } := by
  refine ⟨⟨Graph.mirrored_remove hinStep.mirrored id, fun f => ?_, hinStep.formulas.erase id⟩,
    rfl, rfl, rfl, fun f hf => ?_, fun f hf => ?_⟩
  · rw [Graph.find?_precedents_remove]
    split
    next h => rw [← h, Owner.formula?_remove]; rfl
    next h =>
      rw [(Owner.declared_edit engine.host (.remove id) f (Ne.symm h)).formula]
      exact hinStep.precedents f
  · exact (Owner.declared_edit engine.host (.remove id) f fun he =>
      hf (List.mem_singleton.2 he)).symm
  · exact (Owner.value?_edit engine.host (.remove id) f fun he =>
      hf (List.mem_singleton.2 he)).symm

/-- After a change what depends on it is forgotten, and computed anew if the policy is
to do so at once. -/
theorem react_eq (engine : Engine δ) (field : String) :
    engine.react field =
      match engine.config.policy with
      | .eager => (engine.invalidate [field]).2.recompute (engine.graph.affected [field])
      | .whenRead => (.empty, (engine.invalidate [field]).2) := rfl

/-! ## Writes -/

omit [Owner δ] in
theorem counts_invalidate (engine : Engine δ) (seeds : List String) :
    (engine.invalidate seeds).2.memo.counts = engine.memo.counts :=
  List.foldlRecOn (motive := fun m : Memo => m.counts = engine.memo.counts) _ _ rfl
    fun _ hm _ _ => hm

/-- An engine whose host takes a written value, with the results of what depends on the
field forgotten. -/
structure Written (engine : Engine δ) (field : String) (v : Value) (start : Engine δ) : Prop where
  frame : ∃ memo, start = { engine with host := Host.write engine.host field v, memo }
  known : ∀ f, start.known f =
    if f ∈ engine.graph.affected [field] then none else engine.known f
  counts : start.memo.counts = engine.memo.counts

/-- After a write all that depends on the field is forgotten, and computed anew if the policy
is to do so at once. -/
theorem update_eq (engine : Engine δ) (field : String) (v : Value) :
    ∃ start, engine.Written field v start ∧ engine.update field v =
      match engine.config.policy with
      | .eager => start.recompute (engine.graph.affected [field])
      | .whenRead => (.empty, start) := by
  have hcounts := counts_invalidate { engine with host := Host.write engine.host field v } [field]
  obtain ⟨memo, heq, hmemo⟩ :=
    invalidate_eq { engine with host := Host.write engine.host field v } [field]
  rw [heq] at hcounts
  refine ⟨{ engine with host := Host.write engine.host field v, memo },
    ⟨⟨memo, rfl⟩, hmemo, hcounts⟩, ?_⟩
  unfold update
  rw [react_eq, heq]

namespace Written

variable {v : Value} {start : Engine δ} (h : engine.Written field v start)

include h

theorem host : start.host = Host.write engine.host field v := by
  obtain ⟨memo, rfl⟩ := h.frame
  rfl

theorem graph : start.graph = engine.graph := by
  obtain ⟨memo, rfl⟩ := h.frame
  rfl

theorem config : start.config = engine.config := by
  obtain ⟨memo, rfl⟩ := h.frame
  rfl

/-- A write leaves what fields are declared as. -/
theorem declared (f : String) : Host.Declared start.host engine.host f :=
  h.host ▸ Owner.declared_write engine.host field v f

theorem value? {f : String} (hf : f ≠ field) :
    Host.value? start.host f = Host.value? engine.host f :=
  h.host ▸ Owner.value?_write engine.host field v f hf

theorem inStep (hinStep : engine.InStep) : start.InStep := by
  obtain ⟨memo, rfl⟩ := h.frame
  exact (inStep_write hinStep field v).inStep.with_memo memo

theorem forgotten (hinStep : engine.InStep) : Forgotten [field] engine start := by
  obtain ⟨memo, rfl⟩ := h.frame
  exact (inStep_write hinStep field v).forgotten h.known

end Written

/-! ## Sound engines after changes -/

theorem Sound.invalidate {changed : List String} (h : engine.Sound)
    (hchanged : Changed changed engine engine') : (engine'.invalidate changed).2.Sound := by
  obtain ⟨memo, heq, hmemo⟩ := invalidate_eq engine' changed
  rw [heq]
  exact h.forget (hchanged.inStep.with_memo memo) (hchanged.forgotten hmemo)

theorem Sound.react (h : engine.Sound) (hroom : 1 ≤ engine.config.maxReferenceDepth)
    (hchanged : Changed [field] engine engine') :
    (engine'.react field).2.Sound ∧
      ∀ f r, (engine'.react field).1.find? f = some r →
        (engine'.react field).2.known f = some r := by
  have hsound := h.invalidate hchanged
  rw [react_eq]
  cases engine'.config.policy with
  | eager =>
    obtain ⟨hsound', hresults, -⟩ := hsound.recompute
      (show 1 ≤ engine'.config.maxReferenceDepth from hchanged.config ▸ hroom)
      (engine'.graph.affected [field])
    exact ⟨hsound', hresults⟩
  | whenRead => exact ⟨hsound, fun f r hr => absurd hr (by simp)⟩

end Formulary.Engine
