/-
  Engines whose remembered results are up to date.

  * `Engine.Held`: with a field all that it reads is remembered, and circles as such;
  * `Engine.Settled`: every result that is remembered is what its formula makes of
    the results that are remembered;
  * `Engine.Held.scheduled`, `Engine.Settled.scheduled`: a computation in order keeps
    this;
  * `Engine.Held.forget`, `Engine.Settled.forget`: so does a change of some fields, once
    all that depend on them are forgotten;
  * `Engine.Settled.alike_known`: there is at most one such result of a field, up to
    the circle that a fault lists.
-/
import Formulary.Proofs.Schedule

namespace Formulary.Engine

open Relation

variable {δ : Type} [Host δ] {engine engine' : Engine δ} {field : String}

/-- What is remembered is up to date: with a field all that it reads is remembered, a
field on a circle has a fault that says so, and any other field has the result of its
formula. -/
structure Settled (engine : Engine δ) : Prop where
  closed : ∀ f g, (engine.known f).isSome → engine.graph.Reads f g →
    (Host.formula? engine.host g).isSome → (engine.known g).isSome
  circle : ∀ f r, engine.known f = some r → engine.graph.OnCircle f →
    ∃ fields, r = .error (.cycle fields)
  current : ∀ f r text, engine.known f = some r → ¬ engine.graph.OnCircle f →
    Host.formula? engine.host f = some text → Alike r (engine.resultOf text)

theorem settled_of_empty (h : ∀ f, engine.known f = none) : engine.Settled where
  closed f g hf := by simp [h] at hf
  circle f r hf := by simp [h] at hf
  current f r text hf := by simp [h] at hf

theorem resultOf_alike {text : String} (hsetting : engine.config.maxDepth = engine'.config.maxDepth)
    (hclock : engine.clock = engine'.clock)
    (h : ∀ g ∈ references engine.config.maxDepth text,
      LooksAlike engine.host engine'.host engine.known engine'.known g) :
    Alike (engine.resultOf text) (engine'.resultOf text) := by
  unfold resultOf
  rw [show Session.setting engine'.config engine'.clock =
    Session.setting engine.config engine.clock by rw [Session.setting, ← hsetting, ← hclock]; rfl]
  exact alike_formulaResult h

/-- A circle that is stale as a whole is computed as a whole. -/
theorem knot_of_stale (hinStep : engine.InStep) {targets : NameSet}
    (hfield : field ∈ engine.withStalePrecedents targets) (hcircle : engine.graph.OnCircle field)
    (hstale : ∀ w, ReflTransGen engine.graph.Reads field w →
      ReflTransGen engine.graph.Reads w field → engine.known w = none) :
    engine.Knot (engine.withStalePrecedents targets) field := by
  obtain ⟨next, hnext, -⟩ := TransGen.head'_iff.1 hcircle
  refine hcircle.within hfield fun v hv hfv w hvw hwf => ?_
  have hw : (Host.formula? engine.host w).isSome := by
    rcases ReflTransGen.cases_head hwf with rfl | ⟨x, hwx, -⟩
    · exact hinStep.formula_of_reads hnext
    · exact hinStep.formula_of_reads hwx
  exact mem_within_of_stale hv hvw (isStale_iff.2 ⟨hstale w (hfv.tail hvw) hwf, hw⟩)

/-- With a field all that it reads is remembered, and a field on a circle has a fault
that says so. -/
structure Held (engine : Engine δ) : Prop where
  closed : ∀ f g, (engine.known f).isSome → engine.graph.Reads f g →
    (Host.formula? engine.host g).isSome → (engine.known g).isSome
  circle : ∀ f r, engine.known f = some r → engine.graph.OnCircle f →
    ∃ fields, r = .error (.cycle fields)

theorem held_of_empty (h : ∀ f, engine.known f = none) : engine.Held where
  closed f g hf := by simp [h] at hf
  circle f r hf := by simp [h] at hf

theorem Settled.held (h : engine.Settled) : engine.Held := ⟨h.closed, h.circle⟩

namespace Held

/-- With a field all formula fields below it are remembered. -/
theorem known_below (h : engine.Held) (hinStep : engine.InStep) {u v : String}
    (hu : (engine.known u).isSome) (huv : ReflTransGen engine.graph.Reads u v)
    (hv : (Host.formula? engine.host v).isSome) : (engine.known v).isSome := by
  induction huv with
  | refl => exact hu
  | tail _ hvw ih => exact h.closed _ _ (ih (hinStep.formula_of_reads hvw)) hvw hv

/-- A circle with a stale field is stale as a whole, so it is computed as a whole. -/
theorem knot_of_circle (h : engine.Held) (hinStep : engine.InStep) {targets : NameSet}
    (hfield : field ∈ engine.withStalePrecedents targets) (hstale : engine.known field = none)
    (hcircle : engine.graph.OnCircle field) :
    engine.Knot (engine.withStalePrecedents targets) field := by
  refine knot_of_stale hinStep hfield hcircle fun w _ hwf => ?_
  obtain ⟨next, hnext, -⟩ := TransGen.head'_iff.1 hcircle
  rw [← Option.not_isSome_iff_eq_none]
  intro hsome
  simpa [hstale] using h.known_below hinStep hsome hwf (hinStep.formula_of_reads hnext)

section

variable {targets : NameSet} {p : Progress δ}
  (h : engine.Held) (hinStep : engine.InStep)
  (hp : engine.Scheduled targets (engine.withStalePrecedents targets)
    (engine.withStalePrecedents targets).names p)

include hp

theorem known_after
    (hf : (engine.known field).isSome ∨ field ∈ engine.withStalePrecedents targets) :
    (p.engine.known field).isSome := by
  by_cases hmem : field ∈ engine.withStalePrecedents targets
  · exact hp.isSome_of_done hmem
  · rw [hp.outside field hmem]
    exact hf.resolve_right hmem

/-- What is remembered afterwards but was not before was computed. -/
theorem mem_within_of_known {r : Result} (hr : p.engine.known field = some r)
    (hstale : engine.known field = none) : field ∈ engine.withStalePrecedents targets := by
  by_contra hmem
  rw [hp.outside field hmem, hstale] at hr
  exact absurd hr (by simp)

include h

/-- What was remembered before is alike afterwards: only a circle may get a fault
that lists another circle. -/
theorem alike_after {r : Result} (hr : engine.known field = some r) :
    ∃ r', p.engine.known field = some r' ∧ Alike r r' := by
  by_cases hmem : field ∈ engine.withStalePrecedents targets
  · by_cases hknot : engine.Knot (engine.withStalePrecedents targets) field
    · obtain ⟨group, -, -, hfind⟩ := hp.knotted field hmem hknot
      obtain ⟨fields, rfl⟩ := h.circle field r hr (.of_within hknot)
      exact ⟨_, hfind, .cycles _ _⟩
    · exact ⟨r, hp.kept field hmem hknot r hr, .refl r⟩
  · exact ⟨r, (hp.outside field hmem).trans hr, .refl r⟩

include hinStep

theorem scheduled : p.engine.Held := by
  have hhost : p.engine.host = engine.host := hp.host_eq
  have hgraph : p.engine.graph = engine.graph := hp.graph_eq
  refine ⟨fun f g hf hreads hg => ?_, fun f r hr hcircle => ?_⟩
  · rw [hgraph] at hreads
    rw [hhost] at hg
    refine known_after hp ?_
    by_cases hknown : (engine.known g).isSome
    · exact .inl hknown
    · right
      have hstale : engine.isStale g = true :=
        isStale_iff.2 ⟨Option.not_isSome_iff_eq_none.1 hknown, hg⟩
      by_cases hmem : f ∈ engine.withStalePrecedents targets
      · exact mem_within_of_stale hmem hreads hstale
      · rw [hp.outside f hmem] at hf
        exact absurd (h.closed f g hf hreads hg) hknown
  · rw [hgraph] at hcircle
    cases hknown : engine.known f with
    | some r' =>
      obtain ⟨fields, rfl⟩ := h.circle f r' hknown hcircle
      obtain ⟨r'', hr'', halike⟩ := h.alike_after hp hknown
      obtain rfl := Option.some.inj (hr.symm.trans hr'')
      rcases halike.symm with rfl | ⟨fields', _, rfl, _⟩
      · exact ⟨fields, rfl⟩
      · exact ⟨fields', rfl⟩
    | none =>
      have hmem := mem_within_of_known hp hr hknown
      obtain ⟨group, -, -, hfind⟩ := hp.knotted f hmem
        (h.knot_of_circle hinStep hmem hknown hcircle)
      exact ⟨_, Option.some.inj (hr.symm.trans hfind)⟩

end

/-- Which formulas there are is all that matters of a host. -/
theorem of_formulas (h : engine.Held) {host : δ}
    (hformula : ∀ f, Host.formula? host f = Host.formula? engine.host f) :
    Held { engine with host } where
  closed f g hf hreads hg := h.closed f g hf hreads (hformula g ▸ hg)
  circle := h.circle

end Held

/-- A computation in order keeps an engine up to date. -/
theorem Settled.scheduled {targets : NameSet} {p : Progress δ} (h : engine.Settled)
    (hinStep : engine.InStep)
    (hp : engine.Scheduled targets (engine.withStalePrecedents targets)
      (engine.withStalePrecedents targets).names p) : p.engine.Settled := by
  obtain ⟨memo, formulas, hframe⟩ := hp.frame
  have hhost : p.engine.host = engine.host := hp.host_eq
  have hheld := h.held.scheduled hinStep hp
  refine ⟨hheld.closed, hheld.circle, fun f r text hr hcircle htext => ?_⟩
  rw [show p.engine.graph = engine.graph from hp.graph_eq] at hcircle
  rw [hhost] at htext
  have hknot : ¬ engine.Knot (engine.withStalePrecedents targets) f :=
    fun hk => hcircle (.of_within hk)
  cases hknown : engine.known f with
  | some r' =>
    -- the field and all that it reads were remembered before
    obtain ⟨r'', hr'', halike⟩ := h.held.alike_after hp hknown
    obtain rfl := Option.some.inj (hr.symm.trans hr'')
    refine halike.symm.trans ((h.current f r' text hknown hcircle htext).trans ?_)
    refine resultOf_alike (by rw [hframe]) (by rw [hframe])
      fun g hg => ⟨?_, ?_, fun hformula => ?_⟩
    · rw [hhost]
      exact ⟨rfl, rfl, rfl⟩
    · rw [hhost]
      exact fun _ => rfl
    · have hsome := h.closed f g (by rw [hknown]; rfl) (hinStep.reads_iff.2 ⟨text, htext, hg⟩)
        hformula
      obtain ⟨s, hs⟩ := Option.isSome_iff_exists.1 hsome
      obtain ⟨s', hs', halike⟩ := h.held.alike_after hp hs
      exact ⟨s, s', hs, hs', halike⟩
  | none =>
    have hmem := Held.mem_within_of_known hp hr hknown
    obtain ⟨text', htext', -, hfind⟩ := hp.computed f hmem hknot hknown
    obtain rfl := Option.some.inj (htext.symm.trans htext')
    exact .inl (Option.some.inj (hr.symm.trans hfind))

theorem Scheduled.inStep {targets within : NameSet} {done : List String} {p : Progress δ}
    (hp : engine.Scheduled targets within done p) (hinStep : engine.InStep) : p.engine.InStep where
  mirrored := hp.graph_eq ▸ hinStep.mirrored
  precedents f := by
    rw [hp.graph_eq, hp.host_eq, hp.config_eq]
    exact hinStep.precedents f
  formulas := hp.config_eq ▸ hp.formulas

/-! ## Changes -/

/-- Two engines look alike to formulas: they have the same limit of nesting, their
hosts declare every field alike, and store the same where there is no formula. -/
structure SameView (engine engine' : Engine δ) : Prop where
  limit : engine.config.maxDepth = engine'.config.maxDepth
  declared : ∀ f, Host.Declared engine.host engine'.host f
  stored : ∀ f, Host.formula? engine.host f = none →
    Host.value? engine.host f = Host.value? engine'.host f

theorem SameView.trans {engine'' : Engine δ} (h : engine.SameView engine')
    (h' : engine'.SameView engine'') : engine.SameView engine'' where
  limit := h.limit.trans h'.limit
  declared f := (h.declared f).trans (h'.declared f)
  stored f hf := (h.stored f hf).trans (h'.stored f ((h.declared f).formula ▸ hf))

theorem SameView.reads_iff {u v : String} (h : engine.SameView engine') (hinStep : engine.InStep)
    (hinStep' : engine'.InStep) : engine.graph.Reads u v ↔ engine'.graph.Reads u v := by
  rw [hinStep.reads_iff, hinStep'.reads_iff, (h.declared u).formula, h.limit]

theorem SameView.onCircle {u : String} (h : engine.SameView engine') (hinStep : engine.InStep)
    (hinStep' : engine'.InStep) (hcircle : engine.graph.OnCircle u) : engine'.graph.OnCircle u :=
  TransGen.mono (fun _ _ hr => (h.reads_iff hinStep hinStep').1 hr) _ _ hcircle

/-- Some fields of a host changed, and with them the results of all fields that depend
on them were forgotten. -/
structure Forgotten (changed : List String) (engine engine' : Engine δ) : Prop where
  limit : engine.config.maxDepth = engine'.config.maxDepth
  clock : engine.clock = engine'.clock
  declared : ∀ f, f ∉ changed → Host.Declared engine.host engine'.host f
  stored : ∀ f, f ∉ changed → Host.formula? engine.host f = none →
    Host.value? engine.host f = Host.value? engine'.host f
  known : ∀ f, engine'.known f =
    if f ∈ engine'.graph.affected changed then none else engine.known f

namespace Forgotten

variable {changed : List String}

theorem reads_iff {u v : String} (h : Forgotten changed engine engine') (hinStep : engine.InStep)
    (hinStep' : engine'.InStep) (hu : u ∉ changed) :
    engine.graph.Reads u v ↔ engine'.graph.Reads u v := by
  rw [hinStep.reads_iff, hinStep'.reads_iff, (h.declared u hu).formula, h.limit]

/-- A field that is still remembered does not depend on what changed, so neither it
nor what it reads changed. -/
theorem not_changed (h : Forgotten changed engine engine') (hinStep' : engine'.InStep)
    {u v : String} (hu : (engine'.known u).isSome) (huv : ReflTransGen engine'.graph.Reads u v) :
    v ∉ changed := by
  intro hv
  have hmem : u ∈ engine'.graph.affected changed :=
    (Graph.mem_affected_iff hinStep'.mirrored).2 ⟨v, hv, huv⟩
  simp [h.known, hmem] at hu

theorem known_eq (h : Forgotten changed engine engine') {u : String}
    (hu : (engine'.known u).isSome) : engine'.known u = engine.known u := by
  have hknown := h.known u
  split at hknown
  · rw [hknown] at hu
    exact absurd hu (by simp)
  · exact hknown

/-- What a field reads that is still remembered is still remembered. -/
theorem known_of_reads (h : Forgotten changed engine engine') (hinStep' : engine'.InStep)
    {u v : String} (hu : (engine'.known u).isSome) (huv : engine'.graph.Reads u v) :
    engine'.known v = engine.known v := by
  rw [h.known, if_neg]
  intro hv
  obtain ⟨x, hx, hvx⟩ := (Graph.mem_affected_iff hinStep'.mirrored).1 hv
  exact h.not_changed hinStep' hu (.head huv hvx) hx

end Forgotten

/-- A change forgets whole circles, with all that depends on it. -/
theorem Held.forget {changed : List String} (h : engine.Held) (hinStep : engine.InStep)
    (hinStep' : engine'.InStep) (hforgot : Forgotten changed engine engine') :
    engine'.Held := by
  refine ⟨fun f g hf hreads hg => ?_, fun f r hr hcircle => ?_⟩
  · have hfn := hforgot.not_changed hinStep' hf .refl
    have hgn := hforgot.not_changed hinStep' hf (.single hreads)
    rw [hforgot.known_of_reads hinStep' hf hreads]
    refine h.closed f g (hforgot.known_eq hf ▸ hf)
      ((hforgot.reads_iff hinStep hinStep' hfn).2 hreads) ?_
    rwa [(hforgot.declared g hgn).formula]
  · have hsome : (engine'.known f).isSome := by rw [hr]; rfl
    refine h.circle f r ((hforgot.known_eq hsome).symm.trans hr) ?_
    -- the circle does not lead to what changed, so it was there before
    suffices ∀ v, TransGen engine'.graph.Reads f v → TransGen engine.graph.Reads f v from
      this f hcircle
    intro v hv
    induction hv with
    | single hstep =>
      exact .single ((hforgot.reads_iff hinStep hinStep'
        (hforgot.not_changed hinStep' hsome .refl)).2 hstep)
    | tail hway hstep ih =>
      exact ih.tail ((hforgot.reads_iff hinStep hinStep'
        (hforgot.not_changed hinStep' hsome hway.to_reflTransGen)).2 hstep)

/-- A change keeps an engine up to date, once all that depends on it is forgotten. -/
theorem Settled.forget {changed : List String} (h : engine.Settled) (hinStep : engine.InStep)
    (hinStep' : engine'.InStep) (hforgot : Forgotten changed engine engine') :
    engine'.Settled := by
  have hheld := h.held.forget hinStep hinStep' hforgot
  refine ⟨hheld.closed, hheld.circle, fun f r text hr hcircle htext => ?_⟩
  have hsome : (engine'.known f).isSome := by rw [hr]; rfl
  have hfn := hforgot.not_changed hinStep' hsome .refl
  have hold : engine.known f = some r := (hforgot.known_eq hsome).symm.trans hr
  have htext' : Host.formula? engine.host f = some text :=
    (hforgot.declared f hfn).formula.trans htext
  have hcircle' : ¬ engine.graph.OnCircle f := fun hc => hcircle <|
    Graph.reads_trans_of_agree
      (fun u hu v huv => (hforgot.reads_iff hinStep hinStep' hu).1 huv)
      (fun x hx hfx => hforgot.not_changed hinStep' hsome hfx hx) hc
  refine (h.current f r text hold hcircle' htext').trans ?_
  refine resultOf_alike hforgot.limit hforgot.clock fun g hg => ?_
  have hreads : engine.graph.Reads f g := hinStep.reads_iff.2 ⟨text, htext', hg⟩
  have hreads' := (hforgot.reads_iff hinStep hinStep' hfn).1 hreads
  have hgn := hforgot.not_changed hinStep' hsome (.single hreads')
  refine ⟨hforgot.declared g hgn, hforgot.stored g hgn, fun hformula => ?_⟩
  obtain ⟨s, hs⟩ := Option.isSome_iff_exists.1
    (h.closed f g (by rw [hold]; rfl) hreads hformula)
  exact ⟨s, s, hs, (hforgot.known_of_reads hinStep' hsome hreads').trans hs, .refl s⟩

/-! ## One result of every field -/

/-- No formula of a host calls `now`. -/
def Timeless (limit : Nat) (host : δ) : Prop :=
  ∀ f text e, Host.formula? host f = some text → Expr.ofText limit text = .ok e → e.Timeless

/-- Engines that look alike to formulas remember alike results of a field, if they
remember any: off the circles by induction along the references, and on a circle
both remember that it is one. -/
theorem Settled.alike_known (h : engine.Settled) (h' : engine'.Settled) (hinStep : engine.InStep)
    (hinStep' : engine'.InStep) (hview : engine.SameView engine')
    (htime : engine.clock = engine'.clock ∨ Timeless engine.config.maxDepth engine.host)
    (hformula : (Host.formula? engine.host field).isSome) {r r' : Result}
    (hr : engine.known field = some r) (hr' : engine'.known field = some r') : Alike r r' := by
  induction field using engine.graph.induction_off_circles generalizing r r' with
  | circle f hcircle =>
    obtain ⟨fields, rfl⟩ := h.circle f r hr hcircle
    obtain ⟨fields', rfl⟩ := h'.circle f r' hr' (hview.onCircle hinStep hinStep' hcircle)
    exact .cycles _ _
  | step f hcircle ih =>
    obtain ⟨text, htext⟩ := Option.isSome_iff_exists.1 hformula
    have hcircle' : ¬ engine'.graph.OnCircle f := fun hc => hcircle <|
      TransGen.mono (fun _ _ hr => (hview.reads_iff hinStep hinStep').2 hr) _ _ hc
    have hresult := h.current f r text hr hcircle htext
    have hresult' := h'.current f r' text hr' hcircle' ((hview.declared f).formula.symm.trans htext)
    refine hresult.trans (Alike.trans ?_ hresult'.symm)
    have hclock : engine.resultOf text =
        Engine.resultOf { engine with clock := engine'.clock } text := by
      rcases htime with hclock | htimeless
      · rw [← hclock]
      · exact formulaResult_timeless _ _ fun e he => htimeless f text e htext he
    rw [hclock]
    refine resultOf_alike hview.limit rfl fun g hg => ?_
    refine ⟨hview.declared g, hview.stored g, fun hgformula => ?_⟩
    have hreads : engine.graph.Reads f g := hinStep.reads_iff.2 ⟨text, htext, hg⟩
    obtain ⟨s, hs⟩ := Option.isSome_iff_exists.1
      (h.closed f g (by rw [hr]; rfl) hreads hgformula)
    obtain ⟨s', hs'⟩ := Option.isSome_iff_exists.1
      (h'.closed f g (by rw [hr']; rfl) ((hview.reads_iff hinStep hinStep').1 hreads)
        (by rwa [← (hview.declared g).formula]))
    exact ⟨s, s', hs, hs', ih g hreads hgformula hs hs'⟩

/-- The time of day matters to no engine whose formulas do not call `now`. -/
theorem Settled.tick (h : engine.Settled) (htimeless : Timeless engine.config.maxDepth engine.host)
    (clock : Instant) : Settled { engine with clock } where
  closed := h.closed
  circle := h.circle
  current f r text hr hcircle htext := by
    have hclock : engine.resultOf text = Engine.resultOf { engine with clock } text :=
      formulaResult_timeless _ _ fun e he => htimeless f text e htext he
    exact hclock ▸ h.current f r text hr hcircle htext

end Formulary.Engine
