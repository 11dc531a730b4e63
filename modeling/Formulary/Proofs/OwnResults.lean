/-
  Results that do not depend on where an evaluation began.

  Where no formula leads back to itself every formula field has a result of its own,
  from the top of an evaluation and without a limit of chains.  Limits cut evaluations
  short, and remembered results make them longer; nothing but own results is remembered.

  * `Host.Acyclic`: no formula leads back to itself;
  * `ownResult`: the own results, found by following chains of references;
  * `ownResult_solves`, `eq_ownResult`: they alone are the results of the formulas over
    themselves;
  * `Session.own_readField`: reading a field comes to its own result, or a limit has a
    part in it;
  * `Engine.own_of_readings`: what is remembered after any readings.
-/
import Formulary.Proofs.Nested
import Mathlib

namespace Formulary

open Relation

/-! ## Own results -/

section

variable {δ : Type} [Host δ]

/-- No field refers to itself, directly or through others. -/
def Host.Acyclic (limit : Nat) (host : δ) : Prop :=
  ∀ u, ¬ TransGen (Host.Refers limit host) u u

theorem Host.acyclic_of_rank {limit : Nat} {host : δ} (rank : String → Nat)
    (h : ∀ u v, Host.Refers limit host u v → rank v < rank u) : Host.Acyclic limit host := by
  intro u hu
  have hlt : ∀ v, TransGen (Host.Refers limit host) u v → rank v < rank u := by
    intro v huv
    induction huv with
    | single h1 => exact h _ _ h1
    | tail _ h1 ih => exact Nat.lt_trans (h _ _ h1) ih
  exact Nat.lt_irrefl _ (hlt u hu)

/-- Each formula comes to the result of its field, where its references to formula fields
come to theirs. -/
def Solves (host : δ) (setting : Setting) (own : String → Result) : Prop :=
  ∀ field text, Host.formula? host field = some text →
    own field = formulaResult host setting (fun f => some (own f)) text

/-- The result of a field, where references are followed for so many steps. -/
def ownResultWithin (host : δ) (setting : Setting) : Nat → String → Result
  | 0, field => .error (.reference field)
  | steps + 1, field =>
    match Host.formula? host field with
    | none => .error (.reference field)
    | some text =>
      formulaResult host setting (fun f => some (ownResultWithin host setting steps f)) text

/-- The own result of a field: no chain of different formula fields is longer than their
number. -/
def ownResult (host : δ) (setting : Setting) (field : String) : Result :=
  ownResultWithin host setting (Host.formulaFields host).length field

/-- The results after one more step are those of the formulas over the results before. -/
def Unfolds (host : δ) (setting : Setting) (results : Nat → String → Result) : Prop :=
  ∀ steps field text, Host.formula? host field = some text →
    results (steps + 1) field = formulaResult host setting (fun f => some (results steps f)) text

theorem ownResultWithin_unfolds (host : δ) (setting : Setting) :
    Unfolds host setting (ownResultWithin host setting) := by
  intro steps field text htext
  rw [ownResultWithin, htext]

end

section

variable {δ : Type} [Owner δ] {host : δ} {setting : Setting}
  (hacyclic : Host.Acyclic setting.limit host)

include hacyclic

/-- How the results are at the start does not count once there were as many steps as
there are formula fields: by induction on the steps that are left, along a chain of
different formula fields that all lead to the one at hand. -/
theorem Unfolds.congr {results results' : Nat → String → Result}
    (h : Unfolds host setting results) (h' : Unfolds host setting results') {steps : Nat}
    {chain : List String} (hdistinct : chain.Nodup) {field : String}
    (hchain : ∀ c ∈ chain, (Host.formula? host c).isSome ∧
      TransGen (Host.Refers setting.limit host) c field)
    (hlength : (Host.formulaFields host).length ≤ steps + chain.length)
    (hformula : (Host.formula? host field).isSome) :
    results steps field = results' steps field := by
  have hnew : field ∉ chain := fun hmem => hacyclic field (hchain field hmem).2
  have hdistinct' : (field :: chain).Nodup := List.nodup_cons.2 ⟨hnew, hdistinct⟩
  induction steps generalizing chain field with
  | zero =>
    -- the field and its chain would be more than there are
    have hsub : field :: chain ⊆ Host.formulaFields host := by
      intro c hc
      rw [Owner.mem_formulaFields]
      rcases List.mem_cons.1 hc with rfl | hc
      · exact hformula
      · exact (hchain c hc).1
    have hle := (List.subperm_of_subset hdistinct' hsub).length_le
    rw [List.length_cons] at hle
    omega
  | succ steps ih =>
    obtain ⟨text, htext⟩ := Option.isSome_iff_exists.1 hformula
    rw [h steps field text htext, h' steps field text htext]
    refine formulaResult_congr fun g hg => .of_known fun hformula' => congrArg some ?_
    have hstep : Host.Refers setting.limit host field g := ⟨text, htext, hg⟩
    have hchain' : ∀ c ∈ field :: chain, (Host.formula? host c).isSome ∧
        TransGen (Host.Refers setting.limit host) c g := by
      intro c hc
      rcases List.mem_cons.1 hc with rfl | hc
      · exact ⟨hformula, .single hstep⟩
      · exact ⟨(hchain c hc).1, (hchain c hc).2.tail hstep⟩
    have hnew' : g ∉ field :: chain := fun hmem => hacyclic g (hchain' g hmem).2
    refine ih hdistinct' hchain' ?_ hformula' hnew' (List.nodup_cons.2 ⟨hnew', hdistinct'⟩)
    rw [List.length_cons]
    omega

/-- The own results are the results of the formulas over the own results. -/
theorem ownResult_solves : Solves host setting (ownResult host setting) := by
  intro field text htext
  have hunfolds := ownResultWithin_unfolds host setting
  have hstable := hunfolds.congr hacyclic
    (show Unfolds host setting fun steps => ownResultWithin host setting (steps + 1) from
      fun steps => hunfolds (steps + 1))
    List.nodup_nil (fun _ hc => absurd hc List.not_mem_nil) (Nat.le_refl _)
    (by rw [htext]; rfl : (Host.formula? host field).isSome)
  exact hstable.trans (hunfolds _ field text htext)

/-- No other results are. -/
theorem eq_ownResult {own : String → Result} (h : Solves host setting own) {field : String}
    (hformula : (Host.formula? host field).isSome) : own field = ownResult host setting field :=
  Unfolds.congr hacyclic (show Unfolds host setting fun _ => own from fun _ => h)
    (ownResultWithin_unfolds host setting) List.nodup_nil
    (fun _ hc => absurd hc List.not_mem_nil) (Nat.le_refl _) hformula

end

/-! ## Sessions -/

namespace Session

/-- A session knows formulas as what they are, and remembers the own results of formula
fields only. -/
structure OwnOnly {δ : Type} [Host δ] (host : δ) (config : Config) (clock : Instant)
    (s : Session) : Prop where
  formulas : s.formulas.Faithful config.maxDepth
  own : ∀ f r, s.memo.results.find? f = some r →
    (Host.formula? host f).isSome ∧ r = ownResult host (setting config clock) f

variable {δ : Type} [Owner δ] {host : δ} {config : Config} {clock : Instant}

theorem OwnOnly.of_results {s t : Session} (h : OwnOnly host config clock s)
    (hresults : t.memo.results = s.memo.results) (hformulas : t.formulas.Faithful config.maxDepth) :
    OwnOnly host config clock t where
  formulas := hformulas
  own f r hr := h.own f r (hresults ▸ hr)

/-- The own result of a field is added, unless a limit had a part in it. -/
theorem OwnOnly.remember {field : String} {r : Result × Session}
    (h : OwnOnly host config clock r.2) (hformula : (Host.formula? host field).isSome)
    (hr : r.2.limited = false → r.1 = ownResult host (setting config clock) field) (s : Session) :
    OwnOnly host config clock (remember field s r) := by
  refine ⟨h.formulas, fun f r' hf => ?_⟩
  rw [find?_remember] at hf
  split at hf
  next hstored =>
    obtain ⟨hlimited, rfl⟩ := hstored
    obtain rfl := Option.some.inj hf
    exact ⟨hformula, hr hlimited⟩
  next => exact h.own f r' hf

/-- A reference comes to what it is over the own results, if formula fields come to
theirs. -/
theorem own_answerWith {read : String → Nat → Session → Result × Session} {path : Path}
    {depth : Nat} {s : Session} (hs : OwnOnly host config clock s ∧ s.limited = false)
    (hread : (Host.formula? host path.root).isSome →
      ComesTo (OwnOnly host config clock) (ownResult host (setting config clock) path.root)
        (read path.root depth s)) :
    ComesTo (OwnOnly host config clock)
      (recalled host (fun f => some (ownResult host (setting config clock) f)) path)
      (answerWith host read path depth s) := by
  unfold answerWith recalled
  cases hformula : Host.formula? host path.root with
  | none =>
    cases Host.value? host path.root with
    | some v => exact .inl ⟨rfl, hs⟩
    | none => exact .inl ⟨rfl, hs⟩
  | some text =>
    dsimp only
    rcases hread (by rw [hformula]; rfl) with ⟨heq, hkept⟩ | ⟨⟨fault, heq⟩, hkept⟩
    · exact .inl ⟨by rw [heq]; rfl, hkept⟩
    · exact .inr ⟨⟨fault, by rw [heq]; rfl⟩, hkept⟩

/-- Whatever is remembered and however long the chain may be, reading a formula field
comes to its own result or a limit has a part in it, and only own results are
remembered afterwards. -/
theorem own_readField (hacyclic : Host.Acyclic config.maxDepth host) (room : Nat)
    {chain : List String} {field : String} (depth : Nat) {s : Session}
    (hchain : ∀ c ∈ chain, TransGen (Host.Refers config.maxDepth host) c field)
    (hs : OwnOnly host config clock s ∧ s.limited = false) :
    let step := readField host config clock room chain field depth s
    OwnOnly host config clock step.2 ∧ ((Host.formula? host field).isSome →
      ComesTo (OwnOnly host config clock) (ownResult host (setting config clock) field) step) := by
  refine readField_induct (motive := fun _ chain field _ s step =>
      (∀ c ∈ chain, TransGen (Host.Refers config.maxDepth host) c field) →
      OwnOnly host config clock s ∧ s.limited = false →
      OwnOnly host config clock step.2 ∧ ((Host.formula? host field).isSome →
        ComesTo (OwnOnly host config clock) (ownResult host (setting config clock) field) step))
    ?clean ?circle ?tooLong ?unknown ?computed room chain field depth s hchain hs
  case clean =>
    intro _ _ field _ s memo result hmemo hfound _ hs
    have hkept : OwnOnly host config clock { s with memo } := hs.1.of_results hmemo hs.1.formulas
    exact ⟨hkept, fun _ => .inl ⟨(hs.1.own field result hfound).2, hkept, hs.2⟩⟩
  case circle =>
    intro _ _ field _ _ _ _ _ hmem hchain _
    exact absurd (hchain field hmem) (hacyclic field)
  case tooLong =>
    intro _ _ _ s memo hmemo _ _ _ hs
    have hkept : OwnOnly host config clock { s with memo, limited := true } :=
      hs.1.of_results hmemo hs.1.formulas
    exact ⟨hkept, fun _ => .inr ⟨⟨_, rfl⟩, hkept, rfl⟩⟩
  case unknown =>
    intro _ _ _ _ s memo hmemo _ _ hformula _ hs
    exact ⟨hs.1.of_results hmemo hs.1.formulas, fun h => by simp [hformula] at h⟩
  case computed =>
    intro room chain field depth s memo text hmemo _ _ htext ih hchain hs
    obtain ⟨hparsed, hformulas⟩ := hs.1.formulas.parse field text
    have hformula : (Host.formula? host field).isSome := by rw [htext]; rfl
    have hread : ∀ (path : Path) d t, path.root ∈ references config.maxDepth text →
        OwnOnly host config clock t ∧ t.limited = false → (Host.formula? host path.root).isSome →
        ComesTo (OwnOnly host config clock) (ownResult host (setting config clock) path.root)
          (readField host config clock room (chain ++ [field]) path.root d t) := by
      intro path d t hpath ht
      refine (ih path.root d t (fun c hc => ?_) ht).2
      have hstep : Host.Refers config.maxDepth host field path.root := ⟨text, htext, hpath⟩
      rcases List.mem_append.1 hc with hc | hc
      · exact (hchain c hc).tail hstep
      · obtain rfl := List.mem_singleton.1 hc
        exact .single hstep
    have hinner : ∀ formulas, formulas.Faithful config.maxDepth →
        OwnOnly host config clock ⟨memo, formulas, false⟩ := fun _ h => hs.1.of_results hmemo h
    rw [compute_eq, hparsed]
    generalize (Formulas.parse _ field text config.maxDepth).2 = formulas at hformulas ⊢
    have hsolves : Solves host (setting config clock) (ownResult host (setting config clock)) :=
      ownResult_solves hacyclic
    have hnone : ∀ r : Result, ¬ Tells (fun _ => False) r := fun r ⟨_, _, h⟩ => h
    have hout := outcome_comesTo (fun _ _ h => ⟨h.formulas, h.own⟩)
      (fun path d t hpath ht _ => own_answerWith ht (hread path d t hpath ht))
      clock depth ⟨hinner formulas hformulas, rfl⟩ (hnone _)
    rw [← hsolves field text htext] at hout
    generalize outcome config clock _ depth _ ⟨memo, formulas, false⟩ = step at hout ⊢
    rcases hout with ⟨heq, hkept, hlimited⟩ | ⟨hfault, hkept, hlimited⟩
    · have hkept' := hkept.remember hformula (fun _ => heq) { s with memo }
      exact ⟨hkept', fun _ => .inl ⟨heq, hkept', Bool.or_eq_false_iff.2 ⟨hlimited, hs.2⟩⟩⟩
    · have hkept' := hkept.remember hformula
        (fun h => absurd (h.symm.trans hlimited) Bool.false_ne_true) { s with memo }
      exact ⟨hkept', fun _ => .inr ⟨hfault, hkept', Bool.or_eq_true_iff.2 (.inl hlimited)⟩⟩

end Session

/-! ## Engines -/

namespace Engine

/-- A reading from an engine, which hands nothing to the host. -/
inductive Reading where
  | field (id : String)
  | expression (text : String)

section

variable {δ : Type} [Host δ]

/-- An engine after a reading. -/
def afterReading (engine : Engine δ) : Reading → Engine δ
  | .field id => (engine.read id).2
  | .expression text => (engine.evaluate text).2

/-- An engine remembers the own results of formula fields only. -/
def RemembersOwn (engine : Engine δ) : Prop :=
  ∀ f r, engine.known f = some r → (Host.formula? engine.host f).isSome ∧
    r = ownResult engine.host (Session.setting engine.config engine.clock) f

end

variable {δ : Type} [Owner δ] {engine : Engine δ}

/-- A reading leaves a session that remembers own results only, if it began with one. -/
theorem ownOnly_reading (hacyclic : Host.Acyclic engine.config.maxDepth engine.host)
    (h : engine.session.OwnOnly engine.host engine.config engine.clock) (reading : Reading) :
    ∃ s, engine.afterReading reading = engine.resume s ∧
      s.OwnOnly engine.host engine.config engine.clock := by
  have hnot : ∀ field, ∀ c ∈ ([] : List String),
      TransGen (Host.Refers engine.config.maxDepth engine.host) c field :=
    fun _ _ hc => absurd hc List.not_mem_nil
  let setting := Session.setting engine.config engine.clock
  cases reading with
  | field id =>
    exact ⟨_, rfl, (Session.own_readField hacyclic _ 0 (hnot id) ⟨h, rfl⟩).1⟩
  | expression text =>
    simp only [afterReading, evaluate]
    cases Expr.ofText engine.config.maxDepth text with
    | error failure => exact ⟨engine.session, rfl, h⟩
    | ok e =>
      refine ⟨_, rfl, ?_⟩
      let kept (s : Session) : Prop := s.OwnOnly engine.host engine.config engine.clock
      have hanswer : ∀ path depth s, kept s ∧ s.limited = false →
          Session.ComesTo kept
            (recalled engine.host (fun f => some (ownResult engine.host setting f)) path)
            (Session.answer engine.host engine.config engine.clock path depth s) :=
        fun path depth s hs => Session.own_answerWith hs
          (Session.own_readField hacyclic _ depth (hnot path.root) hs).2
      have hasks := Expr.eval_asks setting 0 e
      rcases hasks.run_cases (fun s => kept s ∧ s.limited = false)
        (fun s => kept s ∧ s.limited = true) (fun path depth s _ hs _ => hanswer path depth s hs)
        (fun _ _ => not_false) ⟨h, rfl⟩ with ⟨-, hkept, -⟩ | ⟨-, hkept, -⟩
      · exact hkept
      · exact hkept

/-- **Main result.** Whatever the graph is and whatever the limits are: if no formula leads
back to itself, an engine that remembers own results of formula fields only does so after
any readings, whether they succeed or fail.  The own results are the only ones that the
formulas come to, each from the top, over the results of the fields they refer to. -/
theorem own_of_readings (hacyclic : Host.Acyclic engine.config.maxDepth engine.host)
    (hformulas : engine.formulas.Faithful engine.config.maxDepth) (hown : engine.RemembersOwn)
    (readings : List Reading) :
    let setting := Session.setting engine.config engine.clock
    let own := ownResult engine.host setting
    let after := readings.foldl afterReading engine
    Solves engine.host setting own ∧
      (∀ own', Solves engine.host setting own' →
        ∀ f, (Host.formula? engine.host f).isSome → own' f = own f) ∧
      after.host = engine.host ∧
      ∀ f r, after.known f = some r → (Host.formula? engine.host f).isSome ∧ r = own f := by
  intro setting own after
  refine ⟨ownResult_solves hacyclic, fun own' h f => eq_ownResult hacyclic h, ?_⟩
  suffices hafter : ∃ s, after = engine.resume s ∧
      s.OwnOnly engine.host engine.config engine.clock by
    obtain ⟨s, heq, hs⟩ := hafter
    rw [heq]
    exact ⟨rfl, hs.own⟩
  have hstart : engine.session.OwnOnly engine.host engine.config engine.clock := ⟨hformulas, hown⟩
  -- one reading after the other resumes the engine with the session that the last one left
  clear hformulas hown
  induction readings generalizing engine with
  | nil => exact ⟨engine.session, rfl, hstart⟩
  | cons reading rest ih =>
    obtain ⟨s, heq, hs⟩ := ownOnly_reading hacyclic hstart reading
    have hrest := @ih (engine.resume s) hacyclic ⟨hs.formulas, hs.own⟩
    rw [← heq] at hrest
    obtain ⟨t, heq', ht⟩ := hrest
    refine ⟨t, heq'.trans ?_, ?_⟩
    · rw [heq]
      rfl
    · rw [heq] at ht
      exact ht

/-- Three fields, each of which but the last refers to the next. -/
def links : Document where
  fields := [⟨"x", .other, .null, some "{y}", []⟩, ⟨"y", .other, .null, some "{z}", []⟩,
    ⟨"z", .other, .null, some "true", []⟩]
  distinct := by decide

set_option maxRecDepth 8192 in
theorem acyclic_links : Host.Acyclic 64 links := by
  refine Host.acyclic_of_rank (fun f => if f = "x" then 2 else if f = "y" then 1 else 0) ?_
  rintro u v ⟨text, htext, hv⟩
  obtain ⟨field, hfind, hformula⟩ := Option.bind_eq_some_iff.1 htext
  have hfield : field ∈ links.fields := Document.mem_of_field? hfind
  obtain rfl : field.id = u := Document.id_of_field? hfind
  have hy : (references 64 "{y}").names = ["y"] := by cbv
  have hz : (references 64 "{z}").names = ["z"] := by cbv
  have hnone : (references 64 "true").names = [] := by cbv
  simp only [links, List.mem_cons, List.not_mem_nil, or_false] at hfield
  rcases hfield with rfl | rfl | rfl
  · obtain rfl := Option.some.inj hformula
    obtain rfl : v = "y" := by simpa [hy] using NameSet.mem_names.2 hv
    decide
  · obtain rfl := Option.some.inj hformula
    obtain rfl : v = "z" := by simpa [hz] using NameSet.mem_names.2 hv
    decide
  · obtain rfl := Option.some.inj hformula
    simpa [hnone] using NameSet.mem_names.2 hv

/-- An engine that knows no references, remembers the last field and computes only one
field inside another. -/
def lastKnown : Engine Document where
  host := links
  config := ⟨64, 1, .eager⟩
  clock := ⟨0, 0⟩
  graph := .empty
  memo := Memo.empty.store "z" (.ok (.boolean true))
  formulas := .empty

set_option maxRecDepth 8192 in
/-- The first field is too far from what is remembered, and is not remembered; the next
one is near enough. -/
theorem own_of_readings_links :
    let after := [Reading.expression "{x}", .field "y"].foldl afterReading lastKnown
    lastKnown.RemembersOwn ∧ after.known "x" = none ∧
      ∃ r, after.known "y" = some r ∧ r = ownResult links ⟨64, ⟨0, 0⟩⟩ "y" := by
  intro after
  have hown : lastKnown.RemembersOwn := by
    intro f r hr
    have hfind : lastKnown.known f = if "z" = f then some (.ok (.boolean true)) else none :=
      Memo.find?_store ..
    rw [hfind] at hr
    split at hr
    next hf =>
      subst hf
      obtain rfl := Option.some.inj hr
      exact ⟨by cbv, Eq.symm (by cbv)⟩
    next => simp at hr
  have hx : after.known "x" = none := by cbv
  have hy : after.known "y" = some (.ok (.boolean true)) := by cbv
  obtain ⟨-, -, -, hafter⟩ := @own_of_readings Document _ lastKnown acyclic_links
    (Formulas.Faithful.empty 64) hown [.expression "{x}", .field "y"]
  exact ⟨hown, hx, _, hy, (hafter "y" _ hy).2⟩

end Engine
end Formulary
