/-
  What evaluations leave of what was remembered.

  * `Session.readField_induct`: what reading a field in a chain can come to, with what
    is known of the readings inside it;
  * `Session.Grown`: results are only added, none for a field of the chain;
  * `Session.grown_readField`, `Session.grown_answer`: reading a field keeps to this,
    whatever is remembered at the start;
  * `Engine.evaluate_eq`: so does evaluating an expression.
-/
import Formulary.Proofs.Recall

namespace Formulary

namespace Session

variable {δ : Type} [Host δ] {host : δ} {config : Config} {clock : Instant}

/-! ## Readings inside each other -/

/-- A property of readings holds of all if it holds of a field that is remembered, of one
that the chain came back to, where the chain is as long as it may be, of a field without
a formula, and of a formula that is computed, once it holds of all readings inside. -/
theorem readField_induct
    {motive : Nat → List String → String → Nat → Session → Result × Session → Prop}
    (clean : ∀ {room chain field depth s memo result}, memo.results = s.memo.results →
      s.memo.results.find? field = some result →
      motive room chain field depth s (result, { s with memo }))
    (circle : ∀ {room chain field depth s memo}, memo.results = s.memo.results →
      s.memo.results.find? field = none → field ∈ chain →
      motive room chain field depth s (.error (circular chain field), { s with memo }))
    (tooLong : ∀ {chain field depth s memo}, memo.results = s.memo.results →
      s.memo.results.find? field = none → field ∉ chain →
      motive 0 chain field depth s
        (.error (chainTooLong config field), { s with memo, limited := true }))
    (unknown : ∀ {room chain field depth s memo}, memo.results = s.memo.results →
      s.memo.results.find? field = none → field ∉ chain → Host.formula? host field = none →
      motive (room + 1) chain field depth s (.error (.reference field), { s with memo }))
    (computed : ∀ {room chain field depth s memo text}, memo.results = s.memo.results →
      s.memo.results.find? field = none → field ∉ chain → Host.formula? host field = some text →
      (∀ f d t, motive room (chain ++ [field]) f d t
        (readField host config clock room (chain ++ [field]) f d t)) →
      motive (room + 1) chain field depth s
        (compute config clock (answerWith host (readField host config clock room (chain ++ [field])))
          field text depth { s with memo }))
    (room : Nat) (chain : List String) (field : String) (depth : Nat) (s : Session) :
    motive room chain field depth s (readField host config clock room chain field depth s) := by
  induction room generalizing chain field depth s with
  | zero =>
    obtain ⟨hfound, hresults⟩ := s.memo.lookUp_results field
    unfold readField
    generalize s.memo.lookUp field = r at hfound hresults
    obtain ⟨found, memo⟩ := r
    cases found with
    | some result => exact clean hresults hfound.symm
    | none =>
      dsimp only
      split
      next hfield => exact circle hresults hfound.symm hfield
      next hfield => exact tooLong hresults hfound.symm hfield
  | succ room ih =>
    obtain ⟨hfound, hresults⟩ := s.memo.lookUp_results field
    unfold readField
    generalize s.memo.lookUp field = r at hfound hresults
    obtain ⟨found, memo⟩ := r
    cases found with
    | some result => exact clean hresults hfound.symm
    | none =>
      dsimp only
      split
      next hfield => exact circle hresults hfound.symm hfield
      next hfield =>
        cases hformula : Host.formula? host field with
        | none => exact unknown hresults hfound.symm hfield hformula
        | some text =>
          exact computed hresults hfound.symm hfield hformula fun f d t => ih _ f d t

/-! ## What is added -/

/-- Results of formula fields were added, but none for a field of the chain, and a limit
that was met stays met. -/
structure Grown (host : δ) (config : Config) (chain : List String) (s t : Session) : Prop where
  formulas : s.formulas.Faithful config.maxDepth → t.formulas.Faithful config.maxDepth
  kept : ∀ f r, s.memo.results.find? f = some r → t.memo.results.find? f = some r
  chain : ∀ f ∈ chain, t.memo.results.find? f = s.memo.results.find? f
  added : ∀ f, s.memo.results.find? f = none → (t.memo.results.find? f).isSome →
    (Host.formula? host f).isSome
  limited : s.limited = true → t.limited = true

namespace Grown

variable {chain : List String} {s t u : Session}

theorem refl (s : Session) : Grown host config chain s s where
  formulas := id
  kept _ _ := id
  chain _ _ := rfl
  added f hnone hsome := by simp [hnone] at hsome
  limited := id

theorem of_same (h : Same t s) : Grown host config chain s t where
  formulas hf := h.formulas ▸ hf
  kept f r hr := by rwa [h.results]
  chain f _ := by rw [h.results]
  added f hnone hsome := by simp [h.results, hnone] at hsome
  limited hl := h.limited.trans hl

theorem trans (h : Grown host config chain s t) (h' : Grown host config chain t u) :
    Grown host config chain s u where
  formulas := h'.formulas ∘ h.formulas
  kept f r hr := h'.kept f r (h.kept f r hr)
  chain f hf := (h'.chain f hf).trans (h.chain f hf)
  added f hnone hsome := by
    cases ht : t.memo.results.find? f with
    | none => exact h'.added f ht hsome
    | some r => exact h.added f hnone (by rw [ht]; rfl)
  limited := h'.limited ∘ h.limited

end Grown

theorem grown_answerWith {chain : List String} {read : String → Nat → Session → Result × Session}
    (hread : ∀ field depth s, Grown host config chain s (read field depth s).2)
    (path : Path) (depth : Nat) (s : Session) :
    Grown host config chain s (answerWith host read path depth s).2 := by
  unfold answerWith
  cases Host.formula? host path.root with
  | some text => exact hread path.root depth s
  | none => cases Host.value? host path.root <;> exact .refl s

/-- To remember the result of a field that is not in the chain adds this result. -/
theorem grown_remember {chain : List String} {field text : String} {s : Session}
    {r : Result × Session} (hformula : Host.formula? host field = some text)
    (hfield : field ∉ chain) (hnone : s.memo.results.find? field = none)
    (hr : Grown host config (chain ++ [field]) s { r.2 with limited := true }) :
    Grown host config chain s (remember field s r) := by
  refine ⟨hr.formulas, fun f r' hf => ?_, fun f hf => ?_, fun f hf hsome => ?_,
    fun h => Bool.or_eq_true_iff.2 (.inr h)⟩
  · rw [find?_remember, if_neg]
    · exact hr.kept f r' hf
    · rintro ⟨-, rfl⟩
      exact absurd (hnone.symm.trans hf) (by simp)
  · rw [find?_remember, if_neg]
    · exact hr.chain f (List.mem_append_left _ hf)
    · rintro ⟨-, rfl⟩
      exact hfield hf
  · rw [find?_remember] at hsome
    split at hsome
    next hstored => rw [← hstored.2, hformula]; rfl
    next => exact hr.added f hf hsome

theorem grown_outcome {chain : List String} {answer : Path → Nat → Session → Result × Session}
    (hanswer : ∀ path depth s, Grown host config chain s (answer path depth s).2)
    (depth : Nat) (parsed : Except ParseFailure Expr) (s : Session) :
    Grown host config chain s (outcome config clock answer depth parsed s).2 := by
  unfold outcome
  cases parsed with
  | error failure => exact .refl _
  | ok e =>
    have hrun := Evaluation.run_keeps (Grown host config chain s)
      (fun path depth t ht => ht.trans (hanswer path depth t))
      (e.eval (setting config clock) depth []) (.refl _)
    dsimp only
    generalize (e.eval (setting config clock) depth []).run answer s = r at hrun
    obtain ⟨result, t⟩ := r
    cases result with
    | ok v => exact hrun
    | error reason =>
      refine ⟨hrun.formulas, hrun.kept, hrun.chain, hrun.added, fun h => ?_⟩
      exact Bool.or_eq_true_iff.2 (.inl (hrun.limited h))

/-- The result of a field is added after all questions of its formula, during which the
field was in the chain. -/
theorem grown_compute {chain : List String} {answer : Path → Nat → Session → Result × Session}
    {field text : String} (hformula : Host.formula? host field = some text)
    (hanswer : ∀ path depth s, Grown host config (chain ++ [field]) s (answer path depth s).2)
    (depth : Nat) {s : Session} (hfield : field ∉ chain)
    (hnone : s.memo.results.find? field = none) :
    Grown host config chain s (compute config clock answer field text depth s).2 := by
  have hparse := fun h : s.formulas.Faithful config.maxDepth => (h.parse field text).2
  rw [compute_eq]
  generalize s.formulas.parse field text config.maxDepth = parse at hparse
  obtain ⟨parsed, formulas⟩ := parse
  have hinner : Grown host config (chain ++ [field]) { s with formulas, limited := false }
      (outcome config clock answer depth parsed { s with formulas, limited := false }).2 :=
    grown_outcome hanswer depth parsed _
  generalize outcome config clock answer depth parsed { s with formulas, limited := false } = r
    at hinner
  exact grown_remember hformula hfield hnone ⟨hinner.formulas ∘ hparse, hinner.kept, hinner.chain,
    hinner.added, fun _ => rfl⟩

theorem grown_readField (room : Nat) (chain : List String) (field : String) (depth : Nat)
    (s : Session) :
    Grown host config chain s (readField host config clock room chain field depth s).2 := by
  have hsame {s : Session} {memo : Memo} (h : memo.results = s.memo.results) :
      Same { s with memo } s := ⟨h, rfl, rfl⟩
  refine readField_induct (motive := fun _ chain _ _ s step => Grown host config chain s step.2)
    ?clean ?circle ?tooLong ?unknown ?computed room chain field depth s
  case clean => exact fun hmemo _ => .of_same (hsame hmemo)
  case circle => exact fun hmemo _ _ => .of_same (hsame hmemo)
  case tooLong =>
    intro chain field depth s memo hmemo _ _
    have hgrown : Grown host config chain s { s with memo } := .of_same (hsame hmemo)
    exact ⟨hgrown.formulas, hgrown.kept, hgrown.chain, hgrown.added, fun _ => rfl⟩
  case unknown => exact fun hmemo _ _ _ => .of_same (hsame hmemo)
  case computed =>
    intro room chain field depth s memo text hmemo hnone hfield hformula ih
    refine (Grown.of_same (hsame hmemo)).trans (grown_compute hformula
      (grown_answerWith ih) depth hfield ?_)
    exact (congrArg (·.find? field) hmemo).trans hnone

theorem grown_answer (path : Path) (depth : Nat) (s : Session) :
    Grown host config [] s (answer host config clock path depth s).2 :=
  grown_answerWith (fun f d s => grown_readField _ [] f d s) path depth s

end Session

/-- To evaluate an expression only adds to what an engine remembers. -/
theorem Engine.evaluate_eq {δ : Type} [Host δ] (engine : Engine δ) (text : String) :
    ∃ s, (engine.evaluate text).2 = engine.resume s ∧
      Session.Grown engine.host engine.config [] engine.session s := by
  unfold evaluate
  cases Expr.ofText engine.config.maxDepth text with
  | error failure => exact ⟨engine.session, rfl, .refl _⟩
  | ok e =>
    exact ⟨_, rfl, Evaluation.run_keeps (Session.Grown engine.host engine.config [] engine.session)
      (fun path depth t ht => ht.trans (Session.grown_answer path depth t)) _ (.refl _)⟩

end Formulary
