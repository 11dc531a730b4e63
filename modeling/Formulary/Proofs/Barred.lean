/-
  Engines that may compute no formula.

  Where no formula field may be computed inside another, not even one by itself, to read a
  field fails, and the failure is not remembered.  But circles are found before anything is
  read, and their faults are remembered as ever.

  * `Engine.Barred`: what is remembered are circles, each as a whole;
  * `Engine.read_barred`: to read a field returns what is remembered, or fails;
  * `Engine.Refused`: the state of a computation of which some fields are done;
  * `Engine.Barred.computeInOrder`, `Engine.Barred.forget`: computations in order and changes
    keep engines barred;
  * `Engine.Barred.value`: what a field comes to.
-/
import Formulary.Proofs.Run

namespace Formulary.Engine

open Relation

section

variable {δ : Type} [Host δ] {engine : Engine δ} {targets within : NameSet} {done : List String}
  {p : Progress δ} {field : String}

/-- Only faults of circles are remembered, and with a field on a circle all others on it. -/
structure Barred (engine : Engine δ) : Prop where
  circle : ∀ f r, engine.known f = some r →
    engine.graph.OnCircle f ∧ ∃ fields, r = .error (.cycle fields)
  whole : ∀ f g, (engine.known f).isSome → engine.graph.Reads f g →
    ReflTransGen engine.graph.Reads g f → (engine.known g).isSome

omit [Host δ] in
theorem barred_of_empty (h : ∀ f, engine.known f = none) : engine.Barred where
  circle f r hf := by simp [h] at hf
  whole f g hf := by simp [h] at hf

namespace Barred

variable (h : engine.Barred)

include h

omit [Host δ] in
/-- With a field all that are on a circle with it are remembered. -/
theorem known_around {u v : String} (hu : (engine.known u).isSome)
    (huv : ReflTransGen engine.graph.Reads u v) (hvu : ReflTransGen engine.graph.Reads v u) :
    (engine.known v).isSome := by
  induction huv with
  | refl => exact hu
  | tail hub hbc ih => exact h.whole _ _ (ih (.head hbc hvu)) hbc (hvu.trans hub)

/-- A circle with a stale field is computed as a whole. -/
theorem knot_of_circle (hinStep : engine.InStep)
    (hfield : field ∈ engine.withStalePrecedents targets) (hstale : engine.known field = none)
    (hcircle : engine.graph.OnCircle field) :
    engine.Knot (engine.withStalePrecedents targets) field := by
  refine knot_of_stale hinStep hfield hcircle fun w hfw hwf => ?_
  rw [← Option.not_isSome_iff_eq_none]
  intro hsome
  simpa [hstale] using h.known_around hsome hwf hfw

/-- What depends on some fields is forgotten, which takes circles as a whole. -/
theorem forget (hinStep : engine.InStep) {seeds : List String} {start : Engine δ}
    (hgraph : start.graph = engine.graph)
    (hknown : ∀ f, start.known f =
      if f ∈ engine.graph.affected seeds then none else engine.known f) : start.Barred := by
  have hkept : ∀ f, (start.known f).isSome →
      f ∉ engine.graph.affected seeds ∧ start.known f = engine.known f := by
    intro f hf
    have hfind := hknown f
    split at hfind
    · rw [hfind] at hf
      exact absurd hf (by simp)
    next hfar => exact ⟨hfar, hfind⟩
  refine ⟨fun f r hr => ?_, fun f g hf hreads hway => ?_⟩
  · rw [hgraph]
    exact h.circle f r ((hkept f (by rw [hr]; rfl)).2.symm.trans hr)
  · rw [hgraph] at hreads hway
    obtain ⟨hfar, hfind⟩ := hkept f hf
    have hgfar : g ∉ engine.graph.affected seeds := by
      intro hg
      obtain ⟨s, hs, hgs⟩ := (Graph.mem_affected_iff hinStep.mirrored).1 hg
      exact hfar ((Graph.mem_affected_iff hinStep.mirrored).2 ⟨s, hs, .head hreads hgs⟩)
    rw [hknown, if_neg hgfar]
    exact h.whole f g (hfind ▸ hf) hreads hway

end Barred

/-! ## Reading -/

/-- Why a field is not computed. -/
abbrev refusal (config : Config) (field : String) : Result :=
  .error (Session.chainTooLong config field)

/-- To read a field returns what is remembered, or else it fails and nothing is
remembered. -/
theorem read_barred (hroom : engine.config.maxReferenceDepth = 0) (field : String) :
    ∃ memo, engine.read field =
        ((engine.known field).getD (refusal engine.config field), { engine with memo }) ∧
      memo.results = engine.memo.results := by
  obtain ⟨hfound, hresults⟩ := engine.memo.lookUp_results field
  unfold read
  rw [hroom, Session.readField]
  dsimp only [session]
  generalize engine.memo.lookUp field = r at hfound hresults
  obtain ⟨found, memo⟩ := r
  obtain rfl : found = engine.known field := hfound
  cases hknown : engine.known field with
  | some r => exact ⟨memo, rfl, hresults⟩
  | none => exact ⟨memo, rfl, hresults⟩

/-- The state of a computation of which some fields are done: those on circles have the
faults of their groups, and all others have what was remembered of them, or else they failed. -/
structure Refused (engine : Engine δ) (targets within : NameSet) (done : List String)
    (p : Progress δ) : Prop where
  frame : ∃ memo, p.engine = { engine with memo }
  outside : ∀ f, ¬ (f ∈ done ∧ engine.Knot within f) → p.engine.known f = engine.known f
  knotted : ∀ f ∈ done, engine.Knot within f → ∃ group ∈ engine.graph.components within,
    f ∈ group ∧ p.engine.known f = some (.error (groupFault group))
  results : ∀ f ∈ done, f ∈ targets →
    p.results.find? f = some ((p.engine.known f).getD (refusal engine.config f))

omit [Host δ] in
theorem refused_start (engine : Engine δ) (targets within : NameSet) :
    engine.Refused targets within [] ⟨engine, .empty, []⟩ where
  frame := ⟨_, rfl⟩
  outside _ _ := rfl
  knotted _ hf := absurd hf List.not_mem_nil
  results _ hf := absurd hf List.not_mem_nil

namespace Refused

/-- One more field is done, of which is remembered what has to be. -/
theorem advance_of_entry {fault? : Option Fault} {result : Result} {memo : Memo}
    (h : engine.Refused targets within done p)
    (hstep : p.engine.computeField fault? field = (result, { p.engine with memo }))
    (hothers : ∀ f, f ≠ field → memo.results.find? f = p.engine.known f)
    (hknot : engine.Knot within field → ∃ group ∈ engine.graph.components within,
      field ∈ group ∧ memo.results.find? field = some (.error (groupFault group)))
    (hfree : ¬ engine.Knot within field → memo.results.find? field = p.engine.known field)
    (hresult : result = (memo.results.find? field).getD (refusal engine.config field)) :
    engine.Refused targets within (field :: done) (advance targets fault? p field) := by
  obtain ⟨memo', hframe⟩ := h.frame
  rw [advance_eq hstep]
  refine ⟨⟨memo, by rw [hframe]⟩, fun f hf => ?_, fun f hf hk => ?_, fun f hf ht => ?_⟩
  · by_cases he : f = field
    · subst he
      have hk : ¬ engine.Knot within f := fun hk => hf ⟨List.mem_cons_self, hk⟩
      exact (hfree hk).trans (h.outside f fun hd => hk hd.2)
    · exact (hothers f he).trans (h.outside f fun hd => hf ⟨List.mem_cons_of_mem _ hd.1, hd.2⟩)
  · by_cases he : f = field
    · subst he
      exact hknot hk
    · obtain ⟨group, hgroup, hmem, hfind⟩ :=
        h.knotted f ((List.mem_cons.1 hf).resolve_left he) hk
      exact ⟨group, hgroup, hmem, (hothers f he).trans hfind⟩
  · by_cases he : f = field
    · subst he
      dsimp only
      rw [if_pos ht, NameMap.find?_insert, if_pos rfl, hresult]
    · have hold := h.results f ((List.mem_cons.1 hf).resolve_left he) ht
      rw [← hothers f he] at hold
      dsimp only
      split
      · rw [NameMap.find?_insert, if_neg (Ne.symm he)]
        exact hold
      · exact hold

/-- One more field is done after its turn. -/
theorem advance {fault? : Option Fault} (hroom : engine.config.maxReferenceDepth = 0)
    (h : engine.Refused targets within done p) (hturn : engine.Turn within done fault? field) :
    engine.Refused targets within (field :: done) (Engine.advance targets fault? p field) := by
  cases hturn with
  | @circle group _ hgroup _ hmem _ _ hknot =>
    refine h.advance_of_entry rfl (fun f hf => ?_) (fun _ => ⟨group, hgroup, hmem, ?_⟩)
      (fun hfree => absurd hknot hfree) ?_
    · exact (Memo.find?_store ..).trans (if_neg (Ne.symm hf))
    · exact (Memo.find?_store ..).trans (if_pos rfl)
    · rw [Memo.find?_store, if_pos rfl]
      rfl
  | read _ _ hfree _ =>
    have hconfig : p.engine.config = engine.config := by
      obtain ⟨memo, hframe⟩ := h.frame
      rw [hframe]
    obtain ⟨memo, hread, hresults⟩ := read_barred (hconfig ▸ hroom) field
    refine h.advance_of_entry hread (fun f _ => by rw [hresults])
      (fun hknot => absurd hknot hfree) (fun _ => by rw [hresults]) ?_
    rw [hresults, hconfig]

end Refused

theorem refused_computeInOrder (hroom : engine.config.maxReferenceDepth = 0) (targets : NameSet) :
    engine.Refused targets (engine.withStalePrecedents targets)
      (engine.withStalePrecedents targets).names (engine.computeInOrder targets) := by
  obtain ⟨done, hdone, h⟩ := computeInOrder_induct engine targets
    (motive := engine.Refused targets (engine.withStalePrecedents targets))
    (refused_start engine targets _) fun _ _ _ _ hturn h => h.advance hroom hturn
  have hiff : ∀ f, f ∈ (engine.withStalePrecedents targets).names ↔ f ∈ done :=
    fun f => NameSet.mem_names.trans (hdone f).symm
  refine ⟨h.frame, fun f hf => h.outside f ?_, fun f hf => h.knotted f ((hiff f).1 hf),
    fun f hf => h.results f ((hiff f).1 hf)⟩
  rwa [hiff] at hf

namespace Barred

variable (h : engine.Barred) (hinStep : engine.InStep)
  (hroom : engine.config.maxReferenceDepth = 0)

include h hinStep hroom

/-- A computation in order keeps an engine barred. -/
theorem computeInOrder (targets : NameSet) : (engine.computeInOrder targets).engine.Barred := by
  have hp := refused_computeInOrder hroom targets
  obtain ⟨memo, hframe⟩ := hp.frame
  have hgraph : (engine.computeInOrder targets).engine.graph = engine.graph := by rw [hframe]
  have hkept : ∀ f, (engine.known f).isSome →
      ((engine.computeInOrder targets).engine.known f).isSome := by
    intro f hf
    by_cases hk : f ∈ (engine.withStalePrecedents targets).names ∧
        engine.Knot (engine.withStalePrecedents targets) f
    · obtain ⟨group, -, -, hfind⟩ := hp.knotted f hk.1 hk.2
      rw [hfind]
      rfl
    · rwa [hp.outside f hk]
  refine ⟨fun f r hr => ?_, fun f g hf hreads hway => ?_⟩
  · rw [hgraph]
    by_cases hk : f ∈ (engine.withStalePrecedents targets).names ∧
        engine.Knot (engine.withStalePrecedents targets) f
    · obtain ⟨group, -, -, hfind⟩ := hp.knotted f hk.1 hk.2
      exact ⟨.of_within hk.2, _, Option.some.inj (hr.symm.trans hfind)⟩
    · rw [hp.outside f hk] at hr
      exact h.circle f r hr
  · rw [hgraph] at hreads hway
    have hcircle : engine.graph.OnCircle g := .tail' hway hreads
    by_cases hg : (engine.known g).isSome
    · exact hkept g hg
    · have hnone := Option.not_isSome_iff_eq_none.1 hg
      by_cases hk : f ∈ (engine.withStalePrecedents targets).names ∧
          engine.Knot (engine.withStalePrecedents targets) f
      · -- the circle was computed, and the field with it
        have hformula : (Host.formula? engine.host g).isSome := by
          obtain ⟨next, hnext, -⟩ := TransGen.head'_iff.1 hcircle
          exact hinStep.formula_of_reads hnext
        have hmem := mem_within_of_stale (NameSet.mem_names.1 hk.1) hreads
          (isStale_iff.2 ⟨hnone, hformula⟩)
        obtain ⟨group, -, -, hfind⟩ := hp.knotted g (NameSet.mem_names.2 hmem)
          (h.knot_of_circle hinStep hmem hnone hcircle)
        rw [hfind]
        rfl
      · rw [hp.outside f hk] at hf
        exact absurd (h.whole f g hf hreads hway) hg

/-- The result of a field in a computation in order: it is on a circle, or it failed. -/
theorem results_computeInOrder {targets : NameSet} (hfield : field ∈ targets) :
    ∃ r, (engine.computeInOrder targets).results.find? field = some r ∧
      (engine.graph.OnCircle field → ∃ fields, r = .error (.cycle fields)) ∧
      (¬ engine.graph.OnCircle field → r = refusal engine.config field) := by
  have hp := refused_computeInOrder hroom targets
  have hmem : field ∈ engine.withStalePrecedents targets := target_mem_within hfield
  have hin := NameSet.mem_names.2 hmem
  refine ⟨_, hp.results field hin hfield, fun hcircle => ?_, fun hfree => ?_⟩
  · by_cases hk : engine.Knot (engine.withStalePrecedents targets) field
    · obtain ⟨group, -, -, hfind⟩ := hp.knotted field hin hk
      rw [hfind]
      exact ⟨_, rfl⟩
    · cases hknown : engine.known field with
      | none => exact absurd (h.knot_of_circle hinStep hmem hknown hcircle) hk
      | some r =>
        rw [hp.outside field fun hd => hk hd.2, hknown]
        exact (h.circle field r hknown).2
  · have hk : ¬ engine.Knot (engine.withStalePrecedents targets) field :=
      fun hk => hfree (.of_within hk)
    have hnone : engine.known field = none := by
      rw [← Option.not_isSome_iff_eq_none]
      intro hsome
      obtain ⟨r, hr⟩ := Option.isSome_iff_exists.1 hsome
      exact hfree (h.circle field r hr).1
    rw [hp.outside field fun hd => hk hd.2, hnone]
    rfl

/-- What a formula field comes to: it is on a circle, or it fails. -/
theorem value (hformula : (Host.formula? engine.host field).isSome) :
    (engine.value field).2.Barred ∧
      (engine.graph.OnCircle field → ∃ fields, (engine.value field).1 = .error (.cycle fields)) ∧
      (¬ engine.graph.OnCircle field → (engine.value field).1 = refusal engine.config field) := by
  have hfield : field ∈ NameSet.ofList [field] := by simp
  obtain ⟨text, htext⟩ := Option.isSome_iff_exists.1 hformula
  obtain ⟨r, hr, hcircle, hfree⟩ := h.results_computeInOrder hinStep hroom hfield
  have hvalue : engine.value field =
      (r, (engine.computeInOrder (NameSet.ofList [field])).engine) := by
    unfold Engine.value
    simp only [htext, hr]
  rw [hvalue]
  exact ⟨h.computeInOrder hinStep hroom _, hcircle, hfree⟩

end Barred

end

/-- A recomputation keeps an engine barred. -/
theorem Barred.recompute {δ : Type} [Owner δ] {engine : Engine δ} (h : engine.Barred)
    (hinStep : engine.InStep) (hroom : engine.config.maxReferenceDepth = 0) (fields : NameSet) :
    (engine.recompute fields).2.Barred :=
  recompute_induct (motive := fun e : Engine δ => e.Barred) engine fields
    (h.computeInOrder hinStep hroom _) fun _ _ _ _ he => ⟨he.circle, he.whole⟩

end Formulary.Engine
