/-
  Fields in progress.

  While a formula is computed, its field stands last in the list of fields in progress;
  it is taken off when the computation is over, however it ended.  The relations here
  keep that list in the state.  Nothing but what they check bounds how far readings go
  inside each other, so that a reading comes to an end is to be shown.

  * `Resolver`: what is remembered, with the fields in progress;
  * `Resolver.Reads`, `Resolver.Evaluates`: what it comes to to read a field, and to
    evaluate an expression;
  * `Resolver.reads_returns`: a reading comes to one end, that of `Session.readField`,
    with the fields in progress as they were;
  * `Engine.read_returns`, `Engine.evaluate_returns`: engines read and evaluate so;
  * `Resolver.calls_return`: so does every reading and evaluation, and no result is lost or
    replaced.
-/
import Mathlib
import Formulary.Ledger
import Formulary.Proofs.Sessions

namespace Formulary

/-! ## Relations -/

/-- What is remembered, with the fields in progress, the innermost last. -/
structure Resolver where
  session : Session
  inProgress : List String
  /-- The lists that were in progress, each as soon as it changed. -/
  history : List (List String)

namespace Resolver

variable {δ : Type} [Host δ]

/-- Puts a field last among those in progress. -/
def push (s : Resolver) (field : String) : Resolver where
  session := s.session
  inProgress := s.inProgress ++ [field]
  history := s.history ++ [s.inProgress ++ [field]]

/-- Takes the last field in progress off. -/
def pop (s : Resolver) : Resolver where
  session := s.session
  inProgress := s.inProgress.dropLast
  history := s.history ++ [s.inProgress.dropLast]

mutual

/-- What it comes to to read a field.  A remembered result counts before the fields in
progress, these before their number, and that before the formula of the field. -/
inductive Reads (host : δ) (config : Config) (clock : Instant) :
    String → Nat → Resolver → Result → Resolver → Prop
  | remembered {field : String} {depth : Nat} {s : Resolver} {result : Result} {memo : Memo} :
      s.session.memo.lookUp field = (some result, memo) →
        Reads host config clock field depth s result { s with session.memo := memo }
  | circle {field : String} {depth : Nat} {s : Resolver} {memo : Memo} :
      s.session.memo.lookUp field = (none, memo) → field ∈ s.inProgress →
        Reads host config clock field depth s (.error (Session.circular s.inProgress field))
          { s with session.memo := memo }
  | tooLong {field : String} {depth : Nat} {s : Resolver} {memo : Memo} :
      s.session.memo.lookUp field = (none, memo) → field ∉ s.inProgress →
      config.maxReferenceDepth ≤ s.inProgress.length →
        Reads host config clock field depth s (.error (Session.chainTooLong config field))
          { s with session.memo := memo, session.limited := true }
  | unknown {field : String} {depth : Nat} {s : Resolver} {memo : Memo} :
      s.session.memo.lookUp field = (none, memo) → field ∉ s.inProgress →
      s.inProgress.length < config.maxReferenceDepth → Host.formula? host field = none →
        Reads host config clock field depth s (.error (.reference field))
          { s with session.memo := memo }
  | computed {field text : String} {depth : Nat} {s t : Resolver} {memo : Memo}
      {parsed : Except ParseFailure Expr} {formulas : Formulas} {r : Result} :
      s.session.memo.lookUp field = (none, memo) → field ∉ s.inProgress →
      s.inProgress.length < config.maxReferenceDepth → Host.formula? host field = some text →
      s.session.formulas.parse field text config.maxDepth = (parsed, formulas) →
      Computes host config clock parsed depth
          (push { s with session := { memo, formulas, limited := false } } field) r t →
        Reads host config clock field depth s r
          { t.pop with session := Session.remember field s.session (r, t.session) }

/-- What a formula comes to.  To be too deep below other evaluations is to meet a limit. -/
inductive Computes (host : δ) (config : Config) (clock : Instant) :
    Except ParseFailure Expr → Nat → Resolver → Result → Resolver → Prop
  | unreadable {failure : ParseFailure} {depth : Nat} {s : Resolver} :
      Computes host config clock (.error failure) depth s (.error failure.toFault) s
  | value {e : Expr} {depth : Nat} {s t : Resolver} {v : Value} :
      Runs host config clock (e.eval (Session.setting config clock) depth []) s (.ok v) t →
        Computes host config clock (.ok e) depth s (.ok v) t
  | stopped {e : Expr} {depth : Nat} {s t : Resolver} {reason : Stop} :
      Runs host config clock (e.eval (Session.setting config clock) depth []) s
          (.error reason) t →
        Computes host config clock (.ok e) depth s (.error reason.toFault) { t with
          session.limited := t.session.limited || (reason.isTooDeep && 0 < depth) }

/-- What the run of an evaluation comes to. -/
inductive Runs (host : δ) (config : Config) (clock : Instant) :
    Evaluation Value → Resolver → Except Stop Value → Resolver → Prop
  | done {v : Value} {s : Resolver} : Runs host config clock (.done v) s (.ok v) s
  | stop {reason : Stop} {s : Resolver} :
      Runs host config clock (.stop reason) s (.error reason) s
  | answered {path : Path} {depth : Nat} {next : Value → Evaluation Value} {s t u : Resolver}
      {v : Value} {r : Except Stop Value} :
      Answers host config clock path depth s (.ok v) t → Runs host config clock (next v) t r u →
        Runs host config clock (.ask path depth next) s r u
  | refused {path : Path} {depth : Nat} {next : Value → Evaluation Value} {s t : Resolver}
      {fault : Fault} :
      Answers host config clock path depth s (.error fault) t →
        Runs host config clock (.ask path depth next) s (.error (.raised fault)) t

/-- What the value of a reference comes to. -/
inductive Answers (host : δ) (config : Config) (clock : Instant) :
    Path → Nat → Resolver → Result → Resolver → Prop
  | computed {path : Path} {depth : Nat} {s t : Resolver} {text : String} {r : Result} :
      Host.formula? host path.root = some text →
      Reads host config clock path.root depth s r t →
        Answers host config clock path depth s
          (r.bind (path.select (Host.columns host path.root))) t
  | stored {path : Path} {depth : Nat} {s : Resolver} {v : Value} :
      Host.formula? host path.root = none → Host.value? host path.root = some v →
        Answers host config clock path depth s (path.select (Host.columns host path.root) v) s
  | dangling {path : Path} {depth : Nat} {s : Resolver} :
      Host.formula? host path.root = none → Host.value? host path.root = none →
        Answers host config clock path depth s (.error path.dangling) s

end

/-- What it comes to to evaluate an expression. -/
def Evaluates (host : δ) (config : Config) (clock : Instant) (text : String) :
    Resolver → Result → Resolver → Prop :=
  Computes host config clock (Expr.ofText config.maxDepth text) 0

/-! ## Ends -/

variable {host : δ} {config : Config} {clock : Instant}

/-- No field is in progress twice, and no more of them than there may be. -/
structure Proper (config : Config) (fields : List String) : Prop where
  nodup : fields.Nodup
  length : fields.length ≤ config.maxReferenceDepth

/-- A call from `s` comes to the one end `out`, with the fields in progress as they were
and proper ones on the way. -/
def Returns {α : Type} (config : Config) (ends : α → Resolver → Prop) (s : Resolver)
    (out : α × Session) : Prop :=
  ∃ lists, (∀ fields ∈ lists, Proper config fields) ∧
    ∀ r t, ends r t ↔ r = out.1 ∧ t = ⟨out.2, s.inProgress, s.history ++ lists⟩

/-- A call that pushes and pops nothing. -/
theorem Returns.at_once {α : Type} {ends : α → Resolver → Prop} {s : Resolver}
    {out : α × Session}
    (h : ∀ r t, ends r t ↔ r = out.1 ∧ t = { s with session := out.2 }) :
    Returns config ends s out :=
  ⟨[], fun _ hmem => absurd hmem List.not_mem_nil, fun r t => by rw [h, List.append_nil]⟩

section

variable {chain : List String} {read : String → Nat → Session → Result × Session}

theorem answers_returns
    (hread : ∀ field depth (s : Resolver), s.inProgress = chain →
      Returns config (Reads host config clock field depth s) s (read field depth s.session))
    (path : Path) (depth : Nat) {s : Resolver} (hs : s.inProgress = chain) :
    Returns config (Answers host config clock path depth s) s
      (Session.answerWith host read path depth s.session) := by
  unfold Session.answerWith
  cases hformula : Host.formula? host path.root with
  | some text =>
    obtain ⟨lists, hlists, hends⟩ := hread path.root depth s hs
    refine ⟨lists, hlists, fun r t => ⟨fun h => ?_, ?_⟩⟩
    · cases h with
      | computed _ hr =>
        obtain ⟨rfl, rfl⟩ := (hends _ _).1 hr
        exact ⟨rfl, rfl⟩
      | stored hnone _ => exact absurd (hformula.symm.trans hnone) (by simp)
      | dangling hnone _ => exact absurd (hformula.symm.trans hnone) (by simp)
    · rintro ⟨rfl, rfl⟩
      exact .computed hformula ((hends _ _).2 ⟨rfl, rfl⟩)
  | none =>
    cases hvalue : Host.value? host path.root with
    | some v =>
      refine .at_once fun r t => ⟨fun h => ?_, ?_⟩
      · cases h with
        | computed hsome _ => exact absurd (hformula.symm.trans hsome) (by simp)
        | stored _ hv =>
          obtain rfl := Option.some.inj (hvalue.symm.trans hv)
          exact ⟨rfl, rfl⟩
        | dangling _ hnone => exact absurd (hvalue.symm.trans hnone) (by simp)
      · rintro ⟨rfl, rfl⟩
        exact .stored hformula hvalue
    | none =>
      refine .at_once fun r t => ⟨fun h => ?_, ?_⟩
      · cases h with
        | computed hsome _ => exact absurd (hformula.symm.trans hsome) (by simp)
        | stored _ hv => exact absurd (hvalue.symm.trans hv) (by simp)
        | dangling _ _ => exact ⟨rfl, rfl⟩
      · rintro ⟨rfl, rfl⟩
        exact .dangling hformula hvalue

theorem runs_returns
    (hread : ∀ field depth (s : Resolver), s.inProgress = chain →
      Returns config (Reads host config clock field depth s) s (read field depth s.session))
    (x : Evaluation Value) {s : Resolver} (hs : s.inProgress = chain) :
    Returns config (Runs host config clock x s) s
      (x.run (Session.answerWith host read) s.session) := by
  induction x generalizing s with
  | done v =>
    refine .at_once fun r t => ⟨fun h => ?_, ?_⟩
    · cases h
      exact ⟨rfl, rfl⟩
    · rintro ⟨rfl, rfl⟩
      exact .done
  | stop reason =>
    refine .at_once fun r t => ⟨fun h => ?_, ?_⟩
    · cases h
      exact ⟨rfl, rfl⟩
    · rintro ⟨rfl, rfl⟩
      exact .stop
  | ask path depth next ih =>
    obtain ⟨lists, hlists, hanswer⟩ := answers_returns hread path depth hs
    rw [Evaluation.run]
    generalize Session.answerWith host read path depth s.session = answer at hanswer ⊢
    obtain ⟨answer, session⟩ := answer
    cases answer with
    | error fault =>
      refine ⟨lists, hlists, fun r t => ⟨fun h => ?_, ?_⟩⟩
      · cases h with
        | answered ha _ => exact absurd ((hanswer _ _).1 ha).1 (by simp)
        | refused ha =>
          obtain ⟨hfault, rfl⟩ := (hanswer _ _).1 ha
          obtain rfl := Except.error.inj hfault
          exact ⟨rfl, rfl⟩
      · rintro ⟨rfl, rfl⟩
        exact .refused ((hanswer _ _).2 ⟨rfl, rfl⟩)
    | ok v =>
      obtain ⟨lists', hlists', hnext⟩ :=
        ih v (s := ⟨session, s.inProgress, s.history ++ lists⟩) hs
      refine ⟨lists ++ lists', fun fields hmem => ?_, fun r t => ⟨fun h => ?_, ?_⟩⟩
      · rcases List.mem_append.1 hmem with hmem | hmem
        · exact hlists _ hmem
        · exact hlists' _ hmem
      · cases h with
        | answered ha hr =>
          obtain ⟨hv, rfl⟩ := (hanswer _ _).1 ha
          obtain rfl := Except.ok.inj hv
          obtain ⟨rfl, rfl⟩ := (hnext _ _).1 hr
          exact ⟨rfl, by rw [List.append_assoc]⟩
        | refused ha => exact absurd ((hanswer _ _).1 ha).1 (by simp)
      · rintro ⟨rfl, rfl⟩
        refine .answered ((hanswer _ _).2 ⟨rfl, rfl⟩) ((hnext _ _).2 ⟨rfl, ?_⟩)
        rw [List.append_assoc]

theorem computes_returns
    (hread : ∀ field depth (s : Resolver), s.inProgress = chain →
      Returns config (Reads host config clock field depth s) s (read field depth s.session))
    (parsed : Except ParseFailure Expr) (depth : Nat) {s : Resolver} (hs : s.inProgress = chain) :
    Returns config (Computes host config clock parsed depth s) s
      (Session.outcome config clock (Session.answerWith host read) depth parsed s.session) := by
  cases parsed with
  | error failure =>
    refine .at_once fun r t => ⟨fun h => ?_, ?_⟩
    · cases h
      exact ⟨rfl, rfl⟩
    · rintro ⟨rfl, rfl⟩
      exact .unreadable
  | ok e =>
    obtain ⟨lists, hlists, hrun⟩ :=
      runs_returns hread (e.eval (Session.setting config clock) depth []) hs
    unfold Session.outcome
    dsimp only
    generalize (e.eval (Session.setting config clock) depth []).run
      (Session.answerWith host read) s.session = run at hrun ⊢
    obtain ⟨answer, session⟩ := run
    refine ⟨lists, hlists, fun r t => ⟨fun h => ?_, ?_⟩⟩
    · cases h with
      | value hr =>
        obtain ⟨rfl, rfl⟩ := (hrun _ _).1 hr
        exact ⟨rfl, rfl⟩
      | stopped hr =>
        obtain ⟨rfl, rfl⟩ := (hrun _ _).1 hr
        exact ⟨rfl, rfl⟩
    · rintro ⟨rfl, rfl⟩
      cases answer with
      | ok v => exact .value ((hrun _ _).2 ⟨rfl, rfl⟩)
      | error reason => exact .stopped ((hrun _ _).2 ⟨rfl, rfl⟩)

end

/-- What it comes to to read a field, rule by rule. -/
theorem reads_iff {field : String} {depth : Nat} {s t : Resolver} {r : Result} :
    Reads host config clock field depth s r t ↔
      match s.session.memo.lookUp field with
      | (some result, memo) => r = result ∧ t = { s with session.memo := memo }
      | (none, memo) =>
        if field ∈ s.inProgress then
          r = .error (Session.circular s.inProgress field) ∧ t = { s with session.memo := memo }
        else if config.maxReferenceDepth ≤ s.inProgress.length then
          r = .error (Session.chainTooLong config field) ∧
            t = { s with session.memo := memo, session.limited := true }
        else match Host.formula? host field with
          | none => r = .error (.reference field) ∧ t = { s with session.memo := memo }
          | some text =>
            let parse := s.session.formulas.parse field text config.maxDepth
            let session := { memo, formulas := parse.2, limited := false }
            ∃ u, Computes host config clock parse.1 depth (push { s with session } field) r u ∧
              t = { u.pop with session := Session.remember field s.session (r, u.session) } := by
  constructor
  · intro h
    cases h with
    | remembered h =>
      rw [h]
      exact ⟨rfl, rfl⟩
    | circle h hfield =>
      simp only [h, if_pos hfield]
      exact ⟨trivial, trivial⟩
    | tooLong h hfield hroom =>
      simp only [h, if_neg hfield, if_pos hroom]
      exact ⟨trivial, trivial⟩
    | unknown h hfield hroom hformula =>
      simp only [h, if_neg hfield, if_neg (Nat.not_le.2 hroom), hformula]
      exact ⟨trivial, trivial⟩
    | computed h hfield hroom hformula hparse hr =>
      simp only [h, if_neg hfield, if_neg (Nat.not_le.2 hroom), hformula, hparse]
      exact ⟨_, hr, rfl⟩
  · intro h
    split at h
    next hlookUp =>
      obtain ⟨rfl, rfl⟩ := h
      exact .remembered hlookUp
    next hlookUp =>
      split at h
      next hfield =>
        obtain ⟨rfl, rfl⟩ := h
        exact .circle hlookUp hfield
      next hfield =>
        split at h
        next hroom =>
          obtain ⟨rfl, rfl⟩ := h
          exact .tooLong hlookUp hfield hroom
        next hroom =>
          split at h
          next hformula =>
            obtain ⟨rfl, rfl⟩ := h
            exact .unknown hlookUp hfield (Nat.not_le.1 hroom) hformula
          next hformula =>
            obtain ⟨u, hu, rfl⟩ := h
            exact .computed hlookUp hfield (Nat.not_le.1 hroom) hformula rfl hu

/-- A reading comes to one end: each further field in progress leaves room for one less. -/
theorem reads_returns {room : Nat} {chain : List String} (hchain : chain.Nodup)
    (hroom : chain.length + room = config.maxReferenceDepth) (field : String) (depth : Nat)
    {s : Resolver} (hs : s.inProgress = chain) :
    Returns config (Reads host config clock field depth s) s
      (Session.readField host config clock room chain field depth s.session) := by
  subst hs
  rw [Session.readField.eq_def]
  dsimp only
  obtain ⟨found, memo, hlookUp⟩ : ∃ found memo, s.session.memo.lookUp field = (found, memo) :=
    ⟨_, _, rfl⟩
  rw [hlookUp]
  cases found with
  | some result => exact .at_once fun r t => by simp only [reads_iff, hlookUp]
  | none =>
    dsimp only
    by_cases hfield : field ∈ s.inProgress
    · rw [if_pos hfield]
      exact .at_once fun r t => by simp only [reads_iff, hlookUp, if_pos hfield]
    rw [if_neg hfield]
    cases room with
    | zero =>
      have hfull : config.maxReferenceDepth ≤ s.inProgress.length := hroom.symm.le
      exact .at_once fun r t => by simp only [reads_iff, hlookUp, if_neg hfield, if_pos hfull]
    | succ room =>
      have hfree : ¬ config.maxReferenceDepth ≤ s.inProgress.length := by omega
      cases hformula : Host.formula? host field with
      | none =>
        exact .at_once fun r t => by
          simp only [reads_iff, hlookUp, if_neg hfield, if_neg hfree, hformula]
      | some text =>
        have hlonger : (s.inProgress ++ [field]).length = s.inProgress.length + 1 :=
          List.length_append.trans (congrArg _ (List.length_singleton))
        have hinner : Proper config (s.inProgress ++ [field]) := by
          refine ⟨List.nodup_append.2 ⟨hchain, List.nodup_singleton _, ?_⟩, by omega⟩
          rintro f hf _ hfield' rfl
          exact hfield (List.mem_singleton.1 hfield' ▸ hf)
        have hback : (s.inProgress ++ [field]).dropLast = s.inProgress := List.dropLast_concat
        have hreads : ∀ f d (u : Resolver), u.inProgress = s.inProgress ++ [field] →
            Returns config (Reads host config clock f d u) u (Session.readField host config clock
              room (s.inProgress ++ [field]) f d u.session) :=
          fun f d _ hu => reads_returns hinner.nodup (by omega) f d hu
        obtain ⟨lists, hlists, hcomputes⟩ := computes_returns hreads
          (s.session.formulas.parse field text config.maxDepth).1 depth
          (s := push { s with session := ⟨memo,
            (s.session.formulas.parse field text config.maxDepth).2, false⟩ } field) rfl
        -- the list with the field, those inside, and the list as it was
        refine ⟨(s.inProgress ++ [field]) :: (lists ++ [s.inProgress]), fun fields hmem => ?_,
          fun r t => ?_⟩
        · rcases List.mem_cons.1 hmem with rfl | hmem
          · exact hinner
          rcases List.mem_append.1 hmem with hmem | hmem
          · exact hlists fields hmem
          · obtain rfl := List.mem_singleton.1 hmem
            exact ⟨hchain, by omega⟩
        · simp only [reads_iff, hlookUp, if_neg hfield, if_neg hfree, hformula, hcomputes]
          rw [Session.compute_eq]
          simp only [and_assoc, exists_and_left, exists_eq_left, push, pop, hback,
            List.append_assoc, List.cons_append, List.nil_append]
          refine and_congr_right ?_
          rintro rfl
          rfl
termination_by room

/-! ## Calls -/

/-- A call left the fields in progress as they were, they were proper on the way, and no
result that was remembered is lost or replaced. -/
structure Restored (config : Config) (s t : Resolver) : Prop where
  inProgress : t.inProgress = s.inProgress
  history : ∃ lists, t.history = s.history ++ lists ∧ ∀ fields ∈ lists, Proper config fields
  kept : ∀ f result, s.session.memo.results.find? f = some result →
    t.session.memo.results.find? f = some result

theorem Returns.restored {α : Type} (host : δ) {ends : α → Resolver → Prop} {s : Resolver}
    {out : α × Session} (h : Returns config ends s out)
    (hgrown : Session.Grown host config s.inProgress s.session out.2) :
    ∃ t, (∀ r' t', ends r' t' ↔ r' = out.1 ∧ t' = t) ∧ t.session = out.2 ∧ Restored config s t := by
  obtain ⟨lists, hlists, hends⟩ := h
  exact ⟨_, hends, rfl, rfl, ⟨lists, rfl, hlists⟩, hgrown.kept⟩

/-- What `Session.answer` gives, where some fields are in progress already. -/
def answer (host : δ) (config : Config) (clock : Instant) (s : Resolver) :
    Path → Nat → Session → Result × Session :=
  Session.answerWith host (Session.readField host config clock
    (config.maxReferenceDepth - s.inProgress.length) s.inProgress)

section

variable (host : δ) (clock : Instant) {s : Resolver} (hs : Proper config s.inProgress)

include hs

theorem read_restored (field : String) (depth : Nat) :
    let out := Session.readField host config clock
      (config.maxReferenceDepth - s.inProgress.length) s.inProgress field depth s.session
    ∃ t, (∀ r' t', Reads host config clock field depth s r' t' ↔ r' = out.1 ∧ t' = t) ∧
      t.session = out.2 ∧ Restored config s t :=
  (reads_returns hs.nodup (Nat.add_sub_cancel' hs.length) field depth rfl).restored host
    (Session.grown_readField ..)

theorem evaluate_restored (text : String) :
    let out := Session.outcome config clock (answer host config clock s) 0
      (Expr.ofText config.maxDepth text) s.session
    ∃ t, (∀ r' t', Evaluates host config clock text s r' t' ↔ r' = out.1 ∧ t' = t) ∧
      t.session = out.2 ∧ Restored config s t := by
  have hreads : ∀ field depth (u : Resolver), u.inProgress = s.inProgress →
      Returns config (Reads host config clock field depth u) u _ :=
    fun field depth _ hu =>
      reads_returns hs.nodup (Nat.add_sub_cancel' hs.length) field depth hu
  refine (computes_returns hreads _ 0 rfl).restored host ?_
  exact Session.grown_outcome (Session.grown_answerWith
    (Session.grown_readField _ s.inProgress)) 0 _ _

end

end Resolver

/-! ## Engines -/

namespace Engine

variable {δ : Type} [Host δ] (engine : Engine δ)

/-- At the start of a call nothing is in progress. -/
def resolver : Resolver := ⟨engine.session, [], []⟩

omit [Host δ] in
theorem proper_resolver : Resolver.Proper engine.config engine.resolver.inProgress :=
  ⟨List.nodup_nil, Nat.zero_le _⟩

/-- An engine reads a field so, with nothing in progress. -/
theorem read_returns (field : String) :
    ∃ t, (∀ r' t', Resolver.Reads engine.host engine.config engine.clock field 0 engine.resolver
        r' t' ↔ r' = (engine.read field).1 ∧ t' = t) ∧
      (engine.read field).2 = engine.resume t.session ∧
      Resolver.Restored engine.config engine.resolver t := by
  obtain ⟨t, hends, hsession, hrestored⟩ :=
    Resolver.read_restored engine.host engine.clock engine.proper_resolver field 0
  refine ⟨t, hends, ?_, hrestored⟩
  rw [hsession]
  rfl

/-- It evaluates an expression so, with nothing in progress. -/
theorem evaluate_returns (text : String) :
    ∃ t, (∀ r' t', Resolver.Evaluates engine.host engine.config engine.clock text engine.resolver
        r' t' ↔ r' = (engine.evaluate text).1 ∧ t' = t) ∧
      (engine.evaluate text).2 = engine.resume t.session ∧
      Resolver.Restored engine.config engine.resolver t := by
  have heq : engine.evaluate text =
      let out := Session.outcome engine.config engine.clock
        (Resolver.answer engine.host engine.config engine.clock engine.resolver) 0
        (Expr.ofText engine.config.maxDepth text) engine.session
      (out.1, engine.resume out.2) := by
    unfold evaluate Session.outcome
    cases Expr.ofText engine.config.maxDepth text with
    | error failure => rfl
    | ok e =>
      have hanswer : Resolver.answer engine.host engine.config engine.clock engine.resolver =
          Session.answer engine.host engine.config engine.clock := rfl
      rw [hanswer]
      dsimp only
      generalize (e.eval (Session.setting engine.config engine.clock) 0 []).run
        (Session.answer engine.host engine.config engine.clock) engine.session = run
      obtain ⟨answer, s⟩ := run
      cases answer with
      | ok v => rfl
      | error reason => rfl
  obtain ⟨t, hends, hsession, hrestored⟩ :=
    Resolver.evaluate_restored engine.host engine.clock engine.proper_resolver text
  rw [heq]
  refine ⟨t, hends, ?_, hrestored⟩
  rw [hsession]
  rfl

end Engine

/-! ## All calls -/

namespace Resolver

variable {δ : Type} [Host δ] {config : Config}

/-- **Main result.** To read a field and to evaluate an expression comes to an end, and to
one only, whatever the formulas refer to and whatever is remembered.  On the way no field is
in progress twice and no more of them than there may be, and afterwards they are as they
were, also after a fault.  No result that was remembered is lost or replaced.  What an engine
returns, and remembers then, is what its own readings and evaluations come to. -/
theorem calls_return (host : δ) (clock : Instant) {s : Resolver} (hs : Proper config s.inProgress) :
    (∀ field depth,
      let out := Session.readField host config clock
        (config.maxReferenceDepth - s.inProgress.length) s.inProgress field depth s.session
      ∃ t, (∀ r' t', Reads host config clock field depth s r' t' ↔ r' = out.1 ∧ t' = t) ∧
        t.session = out.2 ∧ Restored config s t) ∧
    (∀ text,
      let out := Session.outcome config clock (answer host config clock s) 0
        (Expr.ofText config.maxDepth text) s.session
      ∃ t, (∀ r' t', Evaluates host config clock text s r' t' ↔ r' = out.1 ∧ t' = t) ∧
        t.session = out.2 ∧ Restored config s t) ∧
    ∀ engine : Engine δ,
      (∀ field, ∃ t, (∀ r' t', Reads engine.host engine.config engine.clock field 0
          engine.resolver r' t' ↔ r' = (engine.read field).1 ∧ t' = t) ∧
        (engine.read field).2 = engine.resume t.session ∧
        Restored engine.config engine.resolver t) ∧
      ∀ text, ∃ t, (∀ r' t', Evaluates engine.host engine.config engine.clock text
          engine.resolver r' t' ↔ r' = (engine.evaluate text).1 ∧ t' = t) ∧
        (engine.evaluate text).2 = engine.resume t.session ∧
        Restored engine.config engine.resolver t :=
  ⟨fun field depth => read_restored host clock hs field depth,
    fun text => evaluate_restored host clock hs text,
    fun engine => ⟨engine.read_returns, engine.evaluate_returns⟩⟩

/-- Two fields that refer to each other, and one that refers to no field there is. -/
def tangled : Ledger where
  values := .empty
  formulas := .ofList [("a", "{b}"), ("b", "{a}"), ("c", "{d}")]
  pushed := []

/-- The first of the two is in progress. -/
def withinA : Resolver := ⟨⟨.empty, .empty, false⟩, ["a"], []⟩

/-- The other one comes back to it. -/
theorem calls_return_tangled : Proper .standard withinA.inProgress ∧
    ∃ t, (∀ r' t', Evaluates tangled .standard ⟨0, 0⟩ "{b}" withinA r' t' ↔
        r' = .error (.cycle ["a", "b", "a"]) ∧ t' = t) ∧
      Restored .standard withinA t := by
  have hs : Proper .standard withinA.inProgress := ⟨by decide, by decide⟩
  obtain ⟨t, hends, -, hrestored⟩ := (calls_return tangled ⟨0, 0⟩ hs).2.1 "{b}"
  have hout : (Session.outcome .standard ⟨0, 0⟩ (answer tangled .standard ⟨0, 0⟩ withinA) 0
      (Expr.ofText 64 "{b}") withinA.session).1 = .error (.cycle ["a", "b", "a"]) := by cbv
  exact ⟨hs, t, fun r' t' => by rw [hends, ← hout]; rfl, hrestored⟩

end Resolver
end Formulary
