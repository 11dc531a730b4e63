/-
  Recomputations that are repeated.

  After a recomputation nothing of what its targets read is stale, so to repeat it computes
  the targets alone.  They are remembered, and are not evaluated or pushed again.  But a target
  on a circle among the targets gets the fault of its group among them, whatever is remembered;
  this is the fault that it has only if its whole group was asked for.

  * `Graph.group_eq_iff`: when the group of a field is the same in a larger set;
  * `Engine.Computed`: an engine after a computation of some targets;
  * `Engine.Computed.within_eq`: then no more than the targets is computed for them;
  * `Engine.Computed.known_again_iff`: when the result of a field stays as it is;
  * `Engine.recompute_repeated`: what a repeated recomputation changes;
  * `Engine.recompute_partial_ring`: a circle that is listed in another way afterwards.
-/
import Formulary.Proofs.Listings
import Formulary.Proofs.Targeted

namespace Formulary

open Relation

/-! ## Groups of smaller sets -/

namespace Graph

variable {g : Graph} {within larger : NameSet} {x y : String}

theorem ReadsWithin.mono (hsub : ∀ x ∈ within, x ∈ larger) (x y : String)
    (h : g.ReadsWithin within x y) : g.ReadsWithin larger x y :=
  ⟨hsub x h.1, hsub y h.2.1, h.2.2⟩

theorem Knotted.mono (hsub : ∀ x ∈ within, x ∈ larger) (h : g.Knotted within x y) :
    g.Knotted larger x y :=
  ⟨ReflTransGen.mono (ReadsWithin.mono hsub) _ _ h.1,
    ReflTransGen.mono (ReadsWithin.mono hsub) _ _ h.2⟩

/-- The group of a field in a set is its group in a larger one if it holds all of this. -/
theorem group_eq_iff {group group' : List String} (hsub : ∀ x ∈ within, x ∈ larger)
    (hgroup : group ∈ g.components within) (hgroup' : group' ∈ g.components larger)
    (hx : x ∈ group) (hx' : x ∈ group') :
    group = group' ↔ ∀ y, g.Knotted larger x y → y ∈ within := by
  obtain ⟨_, hnext⟩ := nextGroup_of_mem hgroup
  obtain ⟨_, hnext'⟩ := nextGroup_of_mem hgroup'
  constructor
  · rintro rfl y hy
    exact hnext.inside y ((hnext'.knot x hx' y).2 hy)
  · intro hall
    have hinside (y : String) (hy : y ∈ group') : y ∈ within :=
      hall y ((hnext'.knot x hx' y).1 hy)
    -- the members of the larger group lead to each other inside it, so inside the set
    have hleads {u v : String} (hu : u ∈ group') (hv : v ∈ group') :
        ReflTransGen (g.ReadsWithin within) u v :=
      ReflTransGen.mono (fun a b h => ⟨hinside a h.1, hinside b h.2.1, h.2.2⟩) _ _
        (hnext'.leads hu hv)
    refine group_eq_names (s := ⟨group', sorted_of_mem_components hgroup'⟩) hgroup fun y => ?_
    rw [hnext.knot x hx]
    refine Iff.trans ⟨Knotted.mono hsub, fun hy => ?_⟩ (hnext'.knot x hx' y).symm
    have hy := (hnext'.knot x hx' y).2 hy
    exact ⟨hleads hx' hy, hleads hy hx'⟩

end Graph

namespace Engine

theorem groupFault_inj {group group' : List String} (h : group ≠ []) (h' : group' ≠ []) :
    groupFault group = groupFault group' ↔ group = group' := by
  refine ⟨fun heq => ?_, congrArg groupFault⟩
  have hlength {l : List String} (hl : l ≠ []) : (l.take 1).length = 1 := by
    rw [List.length_take]
    exact Nat.min_eq_left (List.length_pos_of_ne_nil hl)
  exact List.append_inj_left' (Fault.cycle.inj heq) ((hlength h).trans (hlength h').symm)

/-! ## After a computation -/

section

variable {δ : Type} [Owner δ] {engine once : Engine δ} {targets fields : NameSet} {field : String}

/-- An engine after a computation of some targets: what was computed is remembered, with the
fault of its group if it is on a circle, and the rest is as it was. -/
structure Computed (engine : Engine δ) (targets : NameSet) (once : Engine δ) : Prop where
  inStep : once.InStep
  config : once.config = engine.config
  graph : once.graph = engine.graph
  formula : ∀ f, Host.formula? once.host f = Host.formula? engine.host f
  outside : ∀ f, f ∉ engine.withStalePrecedents targets → once.known f = engine.known f
  remembered : ∀ f ∈ engine.withStalePrecedents targets, once.known f ≠ none
  knotted : ∀ f ∈ engine.withStalePrecedents targets,
    engine.Knot (engine.withStalePrecedents targets) f →
    ∃ group ∈ engine.graph.components (engine.withStalePrecedents targets),
      f ∈ group ∧ once.known f = some (.error (groupFault group))

theorem computed_recompute (hinStep : engine.InStep) (hroom : 1 ≤ engine.config.maxReferenceDepth)
    (fields : NameSet) :
    Computed engine (engine.targetsOf fields) (engine.recompute fields).2 := by
  have hfollows := Follows.recompute hinStep fields
  obtain ⟨p, host, heq, -, hp, -⟩ := recompute_eq hinStep hroom fields
  rw [heq] at hfollows ⊢
  exact ⟨hfollows.inStep, hfollows.config, hfollows.graph, hfollows.formula, hp.outside,
    fun f hf => Option.isSome_iff_ne_none.1 (hp.isSome_of_done hf), hp.knotted⟩

namespace Computed

variable (h : Computed engine targets once)

include h

/-- Nothing of what the targets read is stale any more. -/
theorem within_eq : once.withStalePrecedents targets = targets := by
  refine NameSet.ext_mem fun f => ⟨fun hf => ?_, target_mem_within⟩
  obtain ⟨t, ht, hway⟩ := mem_withStalePrecedents.1 hf
  rcases hway.cases_head with rfl | ⟨g, ⟨hreads, hstale⟩, -⟩
  · exact ht
  · obtain ⟨hnone, hformula⟩ := isStale_iff.1 hstale
    rw [h.graph] at hreads
    rw [h.formula] at hformula
    by_cases hg : g ∈ engine.withStalePrecedents targets
    · exact absurd hnone (h.remembered g hg)
    · rw [h.outside g hg] at hnone
      exact absurd (mem_within_of_stale (target_mem_within ht) hreads
        (isStale_iff.2 ⟨hnone, hformula⟩)) hg

theorem knot_eq : once.Knot targets field = engine.Knot targets field := by
  rw [Knot, Knot, h.graph]

variable (hroom : 1 ≤ engine.config.maxReferenceDepth)
  (htargets : ∀ f ∈ targets, (Host.formula? engine.host f).isSome)

include hroom htargets

theorem scheduled_again :
    once.Scheduled targets targets targets.names (once.computeInOrder targets) := by
  have hp := scheduled_computeInOrder h.inStep (h.config ▸ hroom) targets
    fun f hf => h.formula f ▸ htargets f hf
  rwa [h.within_eq] at hp

/-- All targets are remembered, so none of them is fresh. -/
theorem fresh_again : (once.computeInOrder targets).fresh = [] := by
  refine List.eq_nil_iff_forall_not_mem.2 fun f hf => ?_
  obtain ⟨-, htarget, hnone⟩ := ((h.scheduled_again hroom htargets).fresh f).1 hf
  exact h.remembered f (target_mem_within htarget) hnone

theorem evaluations_again : (once.computeInOrder targets).engine.evaluations = once.evaluations := by
  obtain ⟨computed, -, hmem, hcount⟩ := counted_computeInOrder h.inStep (h.config ▸ hroom)
    fun f hf => h.formula f ▸ htargets f hf
  have hnone : computed = [] := by
    refine List.eq_nil_iff_forall_not_mem.2 fun f hf => ?_
    obtain ⟨hdone, -, hnone⟩ := (hmem f).1 hf
    rw [NameSet.mem_names, h.within_eq] at hdone
    exact h.remembered f (target_mem_within hdone) hnone
  rw [hcount, hnone, List.length_nil, Nat.add_zero]

/-- What is remembered of a field that is on no circle among the targets stays. -/
theorem known_again (hknot : ¬ engine.Knot targets field) :
    (once.computeInOrder targets).engine.known field = once.known field := by
  have hp := h.scheduled_again hroom htargets
  by_cases hfield : field ∈ targets
  · obtain ⟨r, hr⟩ := Option.ne_none_iff_exists'.1 (h.remembered field (target_mem_within hfield))
    rw [hr]
    exact hp.kept field hfield (h.knot_eq ▸ hknot) r hr
  · exact hp.outside field hfield

/-- A target on a circle among the targets has the fault of its group among them, after that
of its group among all that was computed. -/
theorem knotted_again (hknot : engine.Knot targets field) :
    ∃ group ∈ engine.graph.components (engine.withStalePrecedents targets),
      ∃ group' ∈ engine.graph.components targets, field ∈ group ∧ field ∈ group' ∧
      once.known field = some (.error (groupFault group)) ∧
      (once.computeInOrder targets).engine.known field = some (.error (groupFault group')) := by
  have hp := h.scheduled_again hroom htargets
  obtain ⟨g, hstep, -⟩ := TransGen.head'_iff.1 hknot
  have hlarger : engine.Knot (engine.withStalePrecedents targets) field :=
    TransGen.mono (Graph.ReadsWithin.mono fun _ => target_mem_within) _ _ hknot
  obtain ⟨group, hgroup, hmem, hknown⟩ := h.knotted field (target_mem_within hstep.1) hlarger
  obtain ⟨group', hgroup', hmem', hknown'⟩ := hp.knotted field hstep.1 (h.knot_eq ▸ hknot)
  exact ⟨group, hgroup, group', h.graph ▸ hgroup', hmem, hmem', hknown, hknown'⟩

theorem known_again_alike (field : String) :
    Option.Rel Alike (once.known field) ((once.computeInOrder targets).engine.known field) := by
  by_cases hknot : engine.Knot targets field
  · obtain ⟨group, -, group', -, -, -, hknown, hknown'⟩ := h.knotted_again hroom htargets hknot
    rw [hknown, hknown']
    exact .some (.cycles _ _)
  · rw [h.known_again hroom htargets hknot]
    cases once.known field with
    | none => exact .none
    | some r => exact .some (.refl r)

/-- What is remembered of a field stays unless it is on a circle among the targets, and in a
group that they do not hold. -/
theorem known_again_iff (field : String) :
    (once.computeInOrder targets).engine.known field = once.known field ↔
      (engine.Knot targets field → ∀ g,
        engine.graph.Knotted (engine.withStalePrecedents targets) field g → g ∈ targets) := by
  by_cases hknot : engine.Knot targets field
  · obtain ⟨group, hgroup, group', hgroup', hmem, hmem', hknown, hknown'⟩ :=
      h.knotted_again hroom htargets hknot
    rw [hknown, hknown', Option.some.injEq, Except.error.injEq,
      groupFault_inj (List.ne_nil_of_mem hmem') (List.ne_nil_of_mem hmem),
      Graph.group_eq_iff (fun _ => target_mem_within) hgroup' hgroup hmem' hmem,
      forall_prop_of_true hknot]
  · exact iff_of_true (h.known_again hroom htargets hknot) fun hk => absurd hk hknot

end Computed

/-- A recomputation returns what is remembered of its targets afterwards. -/
theorem find?_recompute (hinStep : engine.InStep) (hroom : 1 ≤ engine.config.maxReferenceDepth)
    (fields : NameSet) (f : String) :
    (engine.recompute fields).1.find? f =
      if f ∈ engine.targetsOf fields then (engine.recompute fields).2.known f else none := by
  obtain ⟨p, host, heq, -, hp, -⟩ := recompute_eq hinStep hroom fields
  rw [heq]
  refine (hp.results f).trans (if_congr ?_ rfl rfl)
  exact ⟨fun h => h.2, fun h => ⟨target_mem_within h, h⟩⟩

theorem targetsOf_recompute (hinStep : engine.InStep) (fields : NameSet) :
    (engine.recompute fields).2.targetsOf fields = engine.targetsOf fields :=
  NameSet.ext_mem fun f => by
    rw [mem_targetsOf, mem_targetsOf, (Follows.recompute hinStep fields).formula]

/-- To repeat a recomputation computes its targets again, and pushes nothing. -/
theorem recompute_again (hinStep : engine.InStep) (hroom : 1 ≤ engine.config.maxReferenceDepth)
    (fields : NameSet) :
    (engine.recompute fields).2.recompute fields =
      (((engine.recompute fields).2.computeInOrder (engine.targetsOf fields)).results,
        ((engine.recompute fields).2.computeInOrder (engine.targetsOf fields)).engine) := by
  rw [recompute_unfold, targetsOf_recompute hinStep,
    (computed_recompute hinStep hroom fields).fresh_again hroom fun f hf => (mem_targetsOf.1 hf).2,
    List.foldl_nil]

/-- What a repeated recomputation returns and leaves, against the first one. -/
theorem repeated_recompute (hinStep : engine.InStep) (hroom : 1 ≤ engine.config.maxReferenceDepth)
    (fields : NameSet) :
    let once := engine.recompute fields
    let twice := once.2.recompute fields
    let asked := engine.targetsOf fields
    let computed := engine.withStalePrecedents asked
    let among := fun (set : NameSet) u v => u ∈ set ∧ v ∈ set ∧ engine.graph.Reads u v
    let whole := fun f => TransGen (among asked) f f → ∀ g,
      ReflTransGen (among computed) f g ∧ ReflTransGen (among computed) g f → g ∈ asked
    twice.2.evaluations = once.2.evaluations ∧ twice.2.host = once.2.host ∧
      (∀ f, Option.Rel Alike (once.1.find? f) (twice.1.find? f) ∧
        Option.Rel Alike (once.2.known f) (twice.2.known f)) ∧
      (twice.1 = once.1 ↔ ∀ f, whole f) ∧ ∀ f, twice.2.known f = once.2.known f ↔ whole f := by
  dsimp only
  have h := computed_recompute hinStep hroom fields
  have htargets : ∀ f ∈ engine.targetsOf fields, (Host.formula? engine.host f).isSome :=
    fun f hf => (mem_targetsOf.1 hf).2
  have hfind := find?_recompute h.inStep (h.config ▸ hroom) fields
  have hknown := h.known_again_iff hroom htargets
  have halike := h.known_again_alike hroom htargets
  rw [targetsOf_recompute hinStep] at hfind
  rw [recompute_again hinStep hroom fields] at hfind ⊢
  refine ⟨h.evaluations_again hroom htargets, (frame_computeInOrder _ _).1,
    fun f => ⟨?_, halike f⟩, ⟨fun heq f hknot => ?_, fun hwhole => ?_⟩, hknown⟩
  · rw [hfind, find?_recompute hinStep hroom]
    split
    · exact halike f
    · exact .none
  · obtain ⟨g, hstep, -⟩ := TransGen.head'_iff.1 hknot
    have hsame := hfind f
    rw [heq, find?_recompute hinStep hroom, if_pos hstep.1, if_pos hstep.1] at hsame
    exact (hknown f).1 hsame.symm hknot
  · refine NameMap.ext_find? fun f => ?_
    rw [hfind, find?_recompute hinStep hroom, (hknown f).2 (hwhole f)]

end

section

variable {δ : Type} [Owner δ]

/-- **Main result.** At any point of any run, with room for a reference, let a recomputation be
repeated.  The second one evaluates nothing, pushes nothing and leaves the host as it is; what
it returns and what is remembered afterwards is alike for every field.  It is the same for a
field exactly if the field is on no circle among the formula fields that were asked for, or
these hold its whole group among them and what was dirty below them. -/
theorem recompute_repeated {config : Config} (clock : Instant) (host : δ)
    (hroom : 1 ≤ config.maxReferenceDepth) (run : List Action) (fields : NameSet) :
    let before := (build config clock (⟨host, []⟩ : Traced δ)).performAll run
    let once := before.recompute fields
    let twice := once.2.recompute fields
    let refers := Host.Refers config.maxDepth before.host
    let among := fun (set : NameSet) u v => u ∈ set ∧ v ∈ set ∧ refers u v
    ∃ asked computed : NameSet,
      (∀ f, f ∈ asked ↔ f ∈ fields ∧ (Host.formula? before.host f).isSome) ∧
      (∀ f, f ∈ computed ↔ ∃ t ∈ asked,
        ReflTransGen (fun u v => refers u v ∧ before.fieldState v = .dirty) t f) ∧
      twice.2.memo.counts.evaluations = once.2.memo.counts.evaluations ∧
      twice.2.host = once.2.host ∧
      (∀ f, Option.Rel Alike (once.1.find? f) (twice.1.find? f) ∧
        Option.Rel Alike (once.2.known f) (twice.2.known f)) ∧
      let whole := fun f => TransGen (among asked) f f → ∀ g,
        ReflTransGen (among computed) f g ∧ ReflTransGen (among computed) g f → g ∈ asked
      (twice.1 = once.1 ↔ ∀ f, whole f) ∧ ∀ f, twice.2.known f = once.2.known f ↔ whole f := by
  intro before once twice refers among
  obtain ⟨hinStep, hconfig⟩ := inStep_run (inStep_build config clock (⟨host, []⟩ : Traced δ)) run
  rw [config_build] at hconfig
  have hroom : 1 ≤ before.config.maxReferenceDepth := by rwa [hconfig]
  have hrefers : before.graph.Reads = refers := by rw [hinStep.reads_eq, hconfig]
  have hstale : before.ReadsStale = fun u v => refers u v ∧ before.fieldState v = .dirty := by
    funext u v
    rw [ReadsStale, hrefers, fieldState_eq]
    cases before.isStale v <;> simp
  have hrepeated := repeated_recompute hinStep hroom fields
  rw [hinStep.reads_eq, hconfig] at hrepeated
  refine ⟨before.targetsOf fields, before.withStalePrecedents (before.targetsOf fields),
    fun f => mem_targetsOf, fun f => ?_, hrepeated⟩
  rw [mem_withStalePrecedents, hstale]

/-- Two fields that refer to each other, and a third one that the second refers to as well and
that refers to the first. -/
def partialRing : Document where
  fields := [⟨"a", .other, .null, some "{b}", []⟩, ⟨"b", .other, .null, some "and({a}, {c})", []⟩,
    ⟨"c", .other, .null, some "{a}", []⟩]
  distinct := by decide

def partialRingOnce : Results × Engine (Traced Document) :=
  (build .standard ⟨0, 0⟩ ⟨partialRing, []⟩).recompute (NameSet.ofList ["a", "b"])

def partialRingTwice : Results × Engine (Traced Document) :=
  partialRingOnce.2.recompute (NameSet.ofList ["a", "b"])

/-- To repeat the recomputation of the two evaluates nothing and leaves the host as it is. -/
theorem recompute_repeated_ring :
    1 ≤ Config.standard.maxReferenceDepth ∧
      partialRingTwice.2.evaluations = partialRingOnce.2.evaluations ∧
      partialRingTwice.2.host = partialRingOnce.2.host ∧
      Option.Rel Alike (partialRingOnce.1.find? "a") (partialRingTwice.1.find? "a") := by
  have hroom : 1 ≤ Config.standard.maxReferenceDepth := by decide
  obtain ⟨-, -, -, -, hcount, hhost, halike, -⟩ :=
    recompute_repeated ⟨0, 0⟩ partialRing hroom [] (NameSet.ofList ["a", "b"])
  exact ⟨hroom, hcount, hhost, (halike "a").1⟩

set_option maxRecDepth 8192 in
/-- But the second one lists another circle, and remembers it. -/
theorem recompute_partial_ring :
    (partialRingOnce.1.find? "a" = some (.error (.cycle ["a", "b", "c", "a"])) ∧
        partialRingTwice.1.find? "a" = some (.error (.cycle ["a", "b", "a"]))) ∧
      partialRingOnce.2.known "a" = some (.error (.cycle ["a", "b", "c", "a"])) ∧
      partialRingTwice.2.known "a" = some (.error (.cycle ["a", "b", "a"])) := by
  refine ⟨⟨?_, ?_⟩, ?_, ?_⟩
  all_goals cbv

end

end Engine
end Formulary
