/-
  Reading fields without an order, one inside the other.

  * `Evaluation.Shortened`: an evaluation that goes on as another one, but may stop
    early at the limit of nesting;
  * `Expr.eval_shortened`, `Expr.eval_shortened_top`: with less room, or below other
    evaluations, an expression evaluates so;
  * `Session.ComesTo`, `Session.outcome_comesTo`: a formula comes to its result at the
    top, or a limit has a part in what it comes to;
  * `LimitFault`, `Session.limited_readField`: where a limit had a part in the result
    of a field, the result is a fault that tells of it;
  * `Session.remembered_readField`: any other result is remembered.
-/
import Formulary.Proofs.Sessions

namespace Formulary

/-! ## Evaluations below others -/

/-- A result tells that fields refer to each other in a circle. -/
def Circular (r : Result) : Prop := ∃ fields, r = .error (.cycle fields)

theorem tells_cycle_iff {r : Result} :
    Tells (fun fault => ∃ fields, fault = .cycle fields) r ↔ Circular r := by
  constructor
  · rintro ⟨_, hr, fields, rfl⟩
    exact ⟨fields, hr⟩
  · rintro ⟨fields, hr⟩
    exact ⟨_, hr, fields, rfl⟩

namespace Evaluation

variable {α σ : Type} {limit : Nat}

/-- An evaluation goes on as another one does, at depths of its own, but it may stop early
at a limit of nesting. -/
inductive Shortened (limit : Nat) : Evaluation α → Evaluation α → Prop
  | done (a : α) : Shortened limit (done a) (done a)
  | raised (fault : Fault) : Shortened limit (raise fault) (raise fault)
  | cut (y : Evaluation α) : Shortened limit (stop (.tooDeep limit)) y
  | ask (path : Path) (depth depth' : Nat) {next next' : Value → Evaluation α} :
      (∀ v, Shortened limit (next v) (next' v)) →
        Shortened limit (ask path depth next) (ask path depth' next')

namespace Shortened

theorem bind {β : Type} {x y : Evaluation α} {f g : α → Evaluation β}
    (h : Shortened limit x y) (hfg : ∀ a, Shortened limit (f a) (g a)) :
    Shortened limit (x.bind f) (y.bind g) := by
  induction h with
  | done a => exact hfg a
  | raised fault => exact .raised fault
  | cut y => exact .cut _
  | ask path depth depth' _ ih => exact .ask path depth depth' ih

/-- If it stops for its depth, then at this limit. -/
theorem stop_limit {x y : Evaluation α} (h : Shortened limit x y)
    (run : Path → Nat → σ → Result × σ) (s : σ) {limit' : Nat}
    (hstop : (x.run run s).1 = .error (.tooDeep limit')) : limit' = limit := by
  induction h generalizing s with
  | done a => simp [Evaluation.run] at hstop
  | raised fault => simp [Evaluation.run, raise] at hstop
  | cut y =>
    simp only [Evaluation.run, Except.error.injEq, Stop.tooDeep.injEq] at hstop
    exact hstop.symm
  | ask path depth _ _ ih =>
    rw [Evaluation.run] at hstop
    cases hr : run path depth s with
    | mk r s' =>
      rw [hr] at hstop
      cases r with
      | ok v => exact ih v s' hstop
      | error fault => simp at hstop

/-- Under steady answers it has the same result, unless it stops at the limit. -/
theorem result_cases {x y : Evaluation α} (h : Shortened limit x y) (answer : Path → Result) :
    x.result answer = y.result answer ∨ x.result answer = .error (.tooDeep limit) := by
  induction h with
  | done a => exact .inl rfl
  | raised fault => exact .inl rfl
  | cut y => exact .inr rfl
  | ask path _ _ _ ih =>
    rw [Evaluation.result, Evaluation.result]
    cases answer path with
    | ok v => exact ih v
    | error fault => exact .inl rfl

end Shortened

end Evaluation

namespace Expr

/-- Evaluations of which the left one may stop early. -/
def shortening (limit : Nat) : Congruence where
  rel := Evaluation.Shortened limit
  done := .done
  raise := .raised
  bind := .bind

/-- There is no less room on the right side. -/
def shorteningLevels (limit limit' : Nat) :
    (shortening limit).Levels limit limit' Eq fun _ => True where
  near d d' := limit + d' ≤ limit' + d
  succ h := by omega
  ask path _ _ := .ask path _ _ fun v => Congruence.ofResult (R := shortening limit) v.toResult
  enter := by
    intro d d' x y h hxy
    split
    · exact .cut _
    next hd => rwa [if_neg (by omega)]
  select := Congruence.select_self

/-- With no less room an expression evaluates as it does, up to the limit of nesting. -/
theorem eval_shortened {limit limit' d d' : Nat} (h : limit + d' ≤ limit' + d) (clock : Instant)
    (scope : Scope) (e : Expr) :
    Evaluation.Shortened limit (eval ⟨limit, clock⟩ d scope e) (eval ⟨limit', clock⟩ d' scope e) :=
  eval_related (shorteningLevels limit limit') e h
    (fun _ h => absurd h List.not_mem_nil : scope.Binds []) fun _ _ => trivial

/-- Below other evaluations an expression evaluates as it does at the top, up to the
limit of nesting. -/
theorem eval_shortened_top (setting : Setting) (depth : Nat) (e : Expr) :
    Evaluation.Shortened setting.limit (eval setting depth [] e) (eval setting 0 [] e) :=
  eval_shortened (Nat.le_add_right setting.limit depth) setting.clock [] e

/-- Under steady answers it has the result that it has at the top, unless it is below
others and stops at the limit. -/
theorem result_cases (setting : Setting) (depth : Nat) (e : Expr) (answer : Path → Result) :
    (eval setting depth [] e).result answer = (eval setting 0 [] e).result answer ∨
      0 < depth ∧ (eval setting depth [] e).result answer = .error (.tooDeep setting.limit) := by
  rcases Nat.eq_zero_or_pos depth with rfl | hdepth
  · exact .inl rfl
  · exact ((eval_shortened_top setting depth e).result_cases answer).imp_right fun h => ⟨hdepth, h⟩

end Expr

/-! ## Results at the top -/

namespace Session

variable {δ : Type} [Host δ] {host : δ} {config : Config} {clock : Instant}

/-- A step comes to a result, or it breaks off since a limit has a part in it; either way
the session keeps to some property. -/
def ComesTo (kept : Session → Prop) (r : Result) (step : Result × Session) : Prop :=
  step.1 = r ∧ kept step.2 ∧ step.2.limited = false ∨
    (∃ fault, step.1 = .error fault) ∧ kept step.2 ∧ step.2.limited = true

/-- A formula comes to the result that it has at the top, if its references come to what
is known.  Where this result does not tell of some faults, nothing is asked for that
does. -/
theorem outcome_comesTo {kept : Session → Prop} {why : Fault → Prop}
    {known : String → Option Result} {text : String}
    {answer : Path → Nat → Session → Result × Session}
    (hkept : ∀ s limited, kept s → kept { s with limited })
    (hanswer : ∀ path depth s, path.root ∈ references config.maxDepth text →
      kept s ∧ s.limited = false → ¬ Tells why (recalled host known path) →
      ComesTo kept (recalled host known path) (answer path depth s))
    (clock : Instant) (depth : Nat) {s : Session} (hs : kept s ∧ s.limited = false)
    (hresult : ¬ Tells why (formulaResult host (setting config clock) known text)) :
    ComesTo kept (formulaResult host (setting config clock) known text)
      (outcome config clock answer depth (Expr.ofText config.maxDepth text) s) := by
  unfold formulaResult outcome at *
  rw [show (setting config clock).limit = config.maxDepth from rfl] at *
  cases he : Expr.ofText config.maxDepth text with
  | error failure => exact .inl ⟨rfl, hs⟩
  | ok e =>
    rw [he] at hresult
    dsimp only at hresult ⊢
    have htop := Expr.result_cases (setting config clock) depth e (recalled host known)
    have hraised : ∀ fault, (e.eval (setting config clock) depth []).result
        (recalled host known) = .error (.raised fault) → ¬ why fault := by
      intro fault hfault hwhy
      rcases htop with htop | ⟨-, htop⟩
      · exact hresult ⟨fault, by rw [← htop, hfault]; rfl, hwhy⟩
      · simp [htop] at hfault
    have hcases := (Expr.eval_asks (setting config clock) depth e).run_cases
      (fun t => kept t ∧ t.limited = false) (fun t => kept t ∧ t.limited = true)
      (fun path depth s hpath => hanswer path depth s ((mem_references he).2 hpath)) hraised hs
    generalize (e.eval (setting config clock) depth []).run answer s = r at hcases ⊢
    obtain ⟨r, t⟩ := r
    dsimp only at hcases
    rcases hcases with ⟨heq, ht, hlimited⟩ | ⟨⟨fault, heq⟩, ht, hlimited⟩
    · obtain rfl : r = _ := heq
      rcases htop with htop | ⟨hdepth, htop⟩
      · -- it may be too deep even at the top, and then a limit has a part in it as well
        rw [htop]
        cases (e.eval (setting config clock) 0 []).result (recalled host known) with
        | ok v => exact .inl ⟨rfl, ht, hlimited⟩
        | error reason =>
          cases hpart : reason.isTooDeep && decide (0 < depth) with
          | false => exact .inl ⟨rfl, hkept _ _ ht, by simp [hlimited, hpart]⟩
          | true => exact .inr ⟨⟨_, rfl⟩, hkept _ _ ht, by simp [hpart]⟩
      · rw [htop]
        exact .inr ⟨⟨_, rfl⟩, hkept _ _ ht, by simp [Stop.isTooDeep, hdepth]⟩
    · obtain rfl : r = _ := heq
      exact .inr ⟨⟨_, rfl⟩, hkept _ _ ht, by simp [hlimited]⟩

end Session

/-! ## Limits -/

/-- The faults that tell of a limit: of the length of chains, or of the nesting of
evaluations or of texts. -/
inductive LimitFault (config : Config) : Fault → Prop
  | chain (field : String) : LimitFault config (Session.chainTooLong config field)
  | nesting : LimitFault config (Stop.tooDeep config.maxDepth).toFault
  | text (position : Nat) :
    LimitFault config (⟨position, .tooDeep config.maxDepth⟩ : ParseFailure).toFault

namespace Session

variable {δ : Type} [Host δ] {host : δ} {config : Config} {clock : Instant}

theorem limited_answerWith {read : String → Nat → Session → Result × Session}
    (hread : ∀ field depth s, ¬ s.limited = true → (read field depth s).2.limited = true →
      ∃ fault, (read field depth s).1 = .error fault ∧ LimitFault config fault)
    (path : Path) (depth : Nat) {s : Session} (hs : ¬ s.limited = true)
    (h : (answerWith host read path depth s).2.limited = true) :
    ∃ fault, (answerWith host read path depth s).1 = .error fault ∧ LimitFault config fault := by
  unfold answerWith at h ⊢
  cases hformula : Host.formula? host path.root with
  | some text =>
    rw [hformula] at h
    obtain ⟨fault, heq, hlimit⟩ := hread path.root depth s hs h
    exact ⟨fault, by dsimp only; rw [heq]; rfl, hlimit⟩
  | none =>
    rw [hformula] at h
    dsimp only at h
    cases hvalue : Host.value? host path.root with
    | some v => rw [hvalue] at h; exact absurd h hs
    | none => rw [hvalue] at h; exact absurd h hs

theorem limited_outcome {answer : Path → Nat → Session → Result × Session}
    (hanswer : ∀ path depth s, ¬ s.limited = true → (answer path depth s).2.limited = true →
      ∃ fault, (answer path depth s).1 = .error fault ∧ LimitFault config fault)
    (depth : Nat) (parsed : Except ParseFailure Expr) {s : Session} (hs : ¬ s.limited = true)
    (h : (outcome config clock answer depth parsed s).2.limited = true) :
    ∃ fault, (outcome config clock answer depth parsed s).1 = .error fault ∧
      LimitFault config fault := by
  unfold outcome at h ⊢
  cases parsed with
  | error failure => exact absurd h hs
  | ok e =>
    dsimp only at h ⊢
    have hbroken := Evaluation.run_broken (fun t : Session => t.limited = true) hanswer
      (e.eval (setting config clock) depth []) hs
    have hstop := @Evaluation.Shortened.stop_limit _ _ _ _ _
      (Expr.eval_shortened_top (setting config clock) depth e) answer s
    generalize (e.eval (setting config clock) depth []).run answer s = r at h hbroken hstop ⊢
    obtain ⟨r, t⟩ := r
    cases r with
    | ok v =>
      obtain ⟨fault, hfault, -⟩ := hbroken h
      simp at hfault
    | error reason =>
      simp only [Bool.or_eq_true, Bool.and_eq_true, decide_eq_true_eq] at h
      rcases h with h | ⟨hdeep, hdepth⟩
      · obtain ⟨fault, hfault, hlimit⟩ := hbroken h
        obtain rfl := Except.error.inj hfault
        exact ⟨fault, rfl, hlimit⟩
      · cases reason with
        | raised fault => exact absurd hdeep Bool.false_ne_true
        | tooDeep limit =>
          obtain rfl := hstop rfl
          exact ⟨_, rfl, .nesting⟩

/-- What a field comes to where a limit had a part in it. -/
theorem limited_readField (host : δ) (clock : Instant) (room : Nat) (chain : List String)
    (field : String) (depth : Nat) {s : Session} (hs : ¬ s.limited = true)
    (h : (readField host config clock room chain field depth s).2.limited = true) :
    ∃ fault, (readField host config clock room chain field depth s).1 = .error fault ∧
      LimitFault config fault := by
  refine readField_induct
    (motive := fun _ _ _ _ s step => ¬ s.limited = true → step.2.limited = true →
      ∃ fault, step.1 = .error fault ∧ LimitFault config fault)
    ?clean ?circle ?tooLong ?unknown ?computed room chain field depth s hs h
  case clean => exact fun _ _ hs h => absurd h hs
  case circle => exact fun _ _ _ hs h => absurd h hs
  case tooLong => exact fun _ _ _ _ _ => ⟨_, rfl, .chain _⟩
  case unknown => exact fun _ _ _ _ hs h => absurd h hs
  case computed =>
    intro room chain field depth s memo text _ _ _ _ ih hs h
    rw [compute_eq] at h ⊢
    simp only [remember, Bool.or_eq_true, hs, Bool.false_eq_true, or_false] at h
    exact limited_outcome (fun path depth s => limited_answerWith ih path depth) depth _
      Bool.false_ne_true h

theorem remembered_compute {chain : List String} {field text : String}
    {answer : Path → Nat → Session → Result × Session}
    (hanswer : ∀ path depth s, Grown host config (chain ++ [field]) s (answer path depth s).2)
    (depth : Nat) {s : Session} (hs : s.limited = false)
    (hnone : s.memo.results.find? field = none) :
    let step := compute config clock answer field text depth s
    step.2.memo.results.find? field = if step.2.limited then none else some step.1 := by
  intro step
  have hstep : step = _ := compute_eq answer field text depth s
  generalize s.formulas.parse field text config.maxDepth = parse at hstep
  have hgrown : Grown host config (chain ++ [field])
      { s with formulas := parse.2, limited := false }
      (outcome config clock answer depth parse.1
        { s with formulas := parse.2, limited := false }).2 :=
    grown_outcome hanswer depth parse.1 _
  generalize outcome config clock answer depth parse.1
    { s with formulas := parse.2, limited := false } = r at hstep hgrown
  have hchain : r.2.memo.results.find? field = none :=
    (hgrown.chain field (List.mem_append_right _ List.mem_cons_self)).trans hnone
  rw [hstep]
  have hlimited : (remember field s r).limited = r.2.limited := by
    rw [remember, hs, Bool.or_false]
  dsimp only
  rw [find?_remember, hchain, hlimited]
  cases r.2.limited <;> simp

/-- What a stale field comes to is remembered, unless a limit had a part in it. -/
theorem remembered_readField (clock : Instant) (room : Nat) {chain : List String} {field : String}
    (depth : Nat) {s : Session} (hs : s.limited = false)
    (hformula : (Host.formula? host field).isSome) (hfield : field ∉ chain)
    (hnone : s.memo.results.find? field = none) :
    let step := readField host config clock (room + 1) chain field depth s
    step.2.memo.results.find? field = if step.2.limited then none else some step.1 := by
  obtain ⟨hfound, hresults⟩ := s.memo.lookUp_results field
  obtain ⟨text, htext⟩ := Option.isSome_iff_exists.1 hformula
  intro step
  have hstep : step = readField host config clock (room + 1) chain field depth s := rfl
  rw [readField] at hstep
  generalize s.memo.lookUp field = r at hfound hresults hstep
  obtain ⟨found, memo⟩ := r
  obtain rfl : found = none := hfound.trans hnone
  dsimp only at hstep
  rw [if_neg hfield, htext] at hstep
  rw [hstep]
  refine remembered_compute (fun path depth s => grown_answerWith (fun f d s =>
    grown_readField room (chain ++ [field]) f d s) path depth s) depth hs ?_
  exact (congrArg (·.find? field) hresults).trans hnone

end Session
end Formulary
