/-
  Reading without an order comes to what computing in order does.

  * `Engine.Planned`: a session that holds no results but those of a computation in
    order;
  * `Engine.planned_readField`: off the circles, reading a stale field inside a chain
    comes to its result in that computation, or meets a limit.
-/
import Formulary.Proofs.Nested
import Formulary.Proofs.Schedule

namespace Formulary.Engine

open Relation Session

variable {δ : Type} {engine : Engine δ} {targets : NameSet} {p : Progress δ}

/-- A session holds what an engine remembered, and beyond that only results that a
computation in order comes to. -/
structure Planned (engine : Engine δ) (p : Progress δ) (s : Session) : Prop where
  formulas : s.formulas.Faithful engine.config.maxDepth
  kept : ∀ f r, engine.known f = some r → s.memo.results.find? f = some r
  added : ∀ f r, s.memo.results.find? f = some r → p.engine.known f = some r

namespace Planned

variable {s t : Session}

theorem of_same (h : Planned engine p s) (hst : Same t s) : Planned engine p t where
  formulas := hst.formulas ▸ h.formulas
  kept f r hr := by
    rw [hst.results]
    exact h.kept f r hr
  added f r hr := by
    rw [hst.results] at hr
    exact h.added f r hr

/-- A planned result of a stale field is added. -/
theorem remember {field : String} {r : Result × Session} (hr : Planned engine p r.2)
    (hstale : engine.known field = none)
    (hfield : r.2.limited = false → p.engine.known field = some r.1) :
    Planned engine p (remember field s r) := by
  refine ⟨hr.formulas, fun f r' hf => ?_, fun f r' hf => ?_⟩
  · rw [find?_remember, if_neg, hr.kept f r' hf]
    rintro ⟨-, rfl⟩
    simp [hstale] at hf
  · rw [find?_remember] at hf
    split at hf
    next hstored =>
      obtain ⟨hlimited, rfl⟩ := hstored
      obtain rfl := Option.some.inj hf
      exact hfield hlimited
    next => exact hr.added f r' hf

end Planned

/-- A step comes to a result as it was planned, or it breaks off since a limit has a
part in it. -/
def AsPlanned (engine : Engine δ) (p : Progress δ) : Result → Result × Session → Prop :=
  ComesTo (Planned engine p)

section

variable [Host δ] (hinStep : engine.InStep)
  (hp : engine.Scheduled targets (engine.withStalePrecedents targets)
    (engine.withStalePrecedents targets).names p)
  (htargets : ∀ f ∈ targets, engine.known f = none)

theorem stale_within (htargets : ∀ f ∈ targets, engine.known f = none) {f : String}
    (hf : f ∈ engine.withStalePrecedents targets) : engine.known f = none := by
  rcases target_or_stale hf with ht | hs
  · exact htargets f ht
  · exact (isStale_iff.1 hs).1

/-- What is remembered at the start is not computed anew. -/
theorem planned_session (hinStep : engine.InStep)
    (hp : engine.Scheduled targets (engine.withStalePrecedents targets)
      (engine.withStalePrecedents targets).names p)
    (htargets : ∀ f ∈ targets, engine.known f = none) : Planned engine p engine.session where
  formulas := hinStep.formulas
  kept _ _ h := h
  added f r hr := by
    refine (hp.outside f fun hf => ?_).trans hr
    have hnone := stale_within htargets hf
    exact absurd (hr.symm.trans hnone) (by simp)

include hinStep hp

/-- A reference of a stale field is answered as planned, if the stale fields that it
reads are. -/
theorem planned_answer {room : Nat} {chain : List String} {field text : String}
    (hfield : field ∈ engine.withStalePrecedents targets)
    (htext : Host.formula? engine.host field = some text)
    (hread : ∀ g ∈ engine.withStalePrecedents targets, engine.graph.Reads field g →
      ∀ r, p.engine.known g = some r → ¬ Circular r → ∀ depth s,
      Planned engine p s ∧ s.limited = false → AsPlanned engine p r
        (readField engine.host engine.config engine.clock room chain g depth s))
    (path : Path) (depth : Nat) (s : Session)
    (hpath : path.root ∈ references engine.config.maxDepth text)
    (hs : Planned engine p s ∧ s.limited = false)
    (hanswer : ¬ Circular (recalled engine.host p.engine.known path)) :
    AsPlanned engine p (recalled engine.host p.engine.known path) (answerWith engine.host
      (readField engine.host engine.config engine.clock room chain) path depth s) := by
  unfold answerWith recalled at *
  cases hformula : Host.formula? engine.host path.root with
  | none =>
    refine .inl ?_
    cases Host.value? engine.host path.root with
    | some v => exact ⟨rfl, hs⟩
    | none => exact ⟨rfl, hs⟩
  | some text' =>
    rw [hformula] at hanswer
    dsimp only at hanswer ⊢
    cases hknown : engine.known path.root with
    | some r =>
      have hfound := hs.1.kept _ r hknown
      obtain ⟨hr, hsame⟩ := readField_clean engine.host engine.config engine.clock room chain
        depth hfound
      rw [hr, hs.1.added _ r hfound]
      exact .inl ⟨rfl, hs.1.of_same hsame.toSame, hsame.limited.trans hs.2⟩
    | none =>
      have hreads : engine.graph.Reads field path.root := hinStep.reads_iff.2 ⟨text, htext, hpath⟩
      have hmem := mem_within_of_stale hfield hreads (isStale_iff.2 ⟨hknown, by rw [hformula]; rfl⟩)
      obtain ⟨r, hr⟩ := Option.isSome_iff_exists.1 (hp.isSome_of_done hmem)
      rw [hr] at hanswer ⊢
      have hcircular : ¬ Circular r := by
        rintro ⟨fields, rfl⟩
        exact hanswer ⟨fields, rfl⟩
      rcases hread _ hmem hreads r hr hcircular depth s hs with
        ⟨heq, hs'⟩ | ⟨⟨fault, heq⟩, hs'⟩
      · exact .inl ⟨by rw [heq]; rfl, hs'⟩
      · exact .inr ⟨⟨fault, by rw [heq]; rfl⟩, hs'⟩

end

section

variable [Host δ] (hinStep : engine.InStep)
  (hp : engine.Scheduled targets (engine.withStalePrecedents targets)
    (engine.withStalePrecedents targets).names p)
  (htargets : ∀ f ∈ targets, engine.known f = none)

include hp

/-- A field whose result tells of no circle is on none, so no chain comes back to it. -/
theorem off_circles {chain : List String} {field : String} {r : Result}
    (hfield : field ∈ engine.withStalePrecedents targets) (hr : p.engine.known field = some r)
    (hcircular : ¬ Circular r) (hchain : ∀ c ∈ chain,
      TransGen (engine.graph.ReadsWithin (engine.withStalePrecedents targets)) c field) :
    ¬ engine.Knot (engine.withStalePrecedents targets) field ∧ field ∉ chain := by
  have hknot : ¬ engine.Knot (engine.withStalePrecedents targets) field := by
    intro hknot
    obtain ⟨group, -, -, hgroup⟩ := hp.knotted field hfield hknot
    obtain rfl := Option.some.inj (hr.symm.trans hgroup)
    exact hcircular ⟨_, rfl⟩
  exact ⟨hknot, fun h => hknot (hchain field h)⟩

include hinStep htargets

/-- Off the circles, reading a stale field inside a chain comes to what the computation
in order does, or a limit has a part in it: by induction on the room that is left for
the chain, of which every field leads to the one that is read. -/
theorem planned_readField (room : Nat) {chain : List String} {field : String} {r : Result}
    (hfield : field ∈ engine.withStalePrecedents targets)
    (hchain : ∀ c ∈ chain,
      TransGen (engine.graph.ReadsWithin (engine.withStalePrecedents targets)) c field)
    (hr : p.engine.known field = some r) (hcircular : ¬ Circular r) {depth : Nat}
    {s : Session} (hs : Planned engine p s ∧ s.limited = false) :
    AsPlanned engine p r
      (readField engine.host engine.config engine.clock room chain field depth s) := by
  have hsame {s : Session} {memo : Memo} (h : memo.results = s.memo.results) :
      Same { s with memo } s := ⟨h, rfl, rfl⟩
  refine readField_induct (motive := fun _ chain field _ s step => ∀ r,
      field ∈ engine.withStalePrecedents targets →
      (∀ c ∈ chain,
        TransGen (engine.graph.ReadsWithin (engine.withStalePrecedents targets)) c field) →
      p.engine.known field = some r → ¬ Circular r → Planned engine p s ∧ s.limited = false →
      AsPlanned engine p r step)
    ?clean ?circle ?tooLong ?unknown ?computed room chain field depth s r hfield hchain hr
    hcircular hs
  case clean =>
    intro _ _ field _ s memo result hmemo hfound r _ _ hr _ hs
    obtain rfl := Option.some.inj (hr.symm.trans (hs.1.added field result hfound))
    exact .inl ⟨rfl, hs.1.of_same (hsame hmemo), hs.2⟩
  case circle =>
    intro _ _ _ _ _ _ _ _ hmem r hfield hchain hr hcircular _
    exact absurd hmem (off_circles hp hfield hr hcircular hchain).2
  case tooLong =>
    intro _ _ _ s memo hmemo _ _ r _ _ _ _ hs
    have hkept := hs.1.of_same (hsame hmemo)
    exact .inr ⟨⟨_, rfl⟩, ⟨hkept.formulas, hkept.kept, hkept.added⟩, rfl⟩
  case unknown =>
    intro _ _ field _ _ _ _ _ _ hformula r hfield hchain hr hcircular _
    obtain ⟨text, htext, -⟩ := hp.computed field hfield
      (off_circles hp hfield hr hcircular hchain).1 (stale_within htargets hfield)
    exact absurd (hformula.symm.trans htext) (by simp)
  case computed =>
    intro room chain field depth s memo text hmemo _ _ htext ih r hfield hchain hr hcircular hs
    have hstale := stale_within htargets hfield
    obtain ⟨text', htext', -, hcomputed⟩ := hp.computed field hfield
      (off_circles hp hfield hr hcircular hchain).1 hstale
    obtain rfl := Option.some.inj (htext.symm.trans htext')
    have hkept := hs.1.of_same (hsame hmemo)
    obtain ⟨hparsed, hformulas⟩ := hkept.formulas.parse field text
    rw [compute_eq, hparsed]
    generalize (Formulas.parse _ field text engine.config.maxDepth).2 = formulas at hformulas ⊢
    obtain rfl : r = formulaResult engine.host (setting engine.config engine.clock)
        p.engine.known text := by
      obtain ⟨memo', formulas', hframe⟩ := hp.frame
      refine (Option.some.inj (hr.symm.trans hcomputed)).trans ?_
      unfold resultOf
      rw [show p.engine.host = engine.host from hp.host_eq, show p.engine.config = engine.config
        from hp.config_eq, show p.engine.clock = engine.clock by rw [hframe]]
    have hread : ∀ g ∈ engine.withStalePrecedents targets, engine.graph.Reads field g →
        ∀ r, p.engine.known g = some r → ¬ Circular r → ∀ depth t,
        Planned engine p t ∧ t.limited = false → AsPlanned engine p r (readField engine.host
          engine.config engine.clock room (chain ++ [field]) g depth t) := by
      intro g hg hreads r hr hcircular depth t ht
      refine ih g depth t r hg (fun c hc => ?_) hr hcircular ht
      have hstep : engine.graph.ReadsWithin (engine.withStalePrecedents targets) field g :=
        ⟨hfield, hg, hreads⟩
      rcases List.mem_append.1 hc with hc | hc
      · exact (hchain c hc).tail hstep
      · obtain rfl := List.mem_singleton.1 hc
        exact .single hstep
    have hinner : Planned engine p ⟨memo, formulas, false⟩ := ⟨hformulas, hkept.kept, hkept.added⟩
    have hout := outcome_comesTo (fun t _ h => ⟨h.formulas, h.kept, h.added⟩)
      (fun path depth t hpath ht hanswer => planned_answer hinStep hp hfield htext hread path depth
        t hpath ht (mt tells_cycle_iff.2 hanswer))
      engine.clock depth ⟨hinner, rfl⟩ (mt tells_cycle_iff.1 hcircular)
    generalize outcome engine.config engine.clock _ depth _ ⟨memo, formulas, false⟩ = step
      at hout ⊢
    rcases hout with ⟨heq, hplanned, hlimited⟩ | ⟨hfault, hplanned, hlimited⟩
    · refine .inl ⟨heq, hplanned.remember hstale fun _ => heq ▸ hr, ?_⟩
      exact Bool.or_eq_false_iff.2 ⟨hlimited, hs.2⟩
    · refine .inr ⟨hfault, hplanned.remember hstale fun h => ?_, ?_⟩
      · exact absurd (h.symm.trans hlimited) Bool.false_ne_true
      · exact Bool.or_eq_true_iff.2 (.inl hlimited)

end

end Formulary.Engine
