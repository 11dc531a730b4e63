/-
  A failing answer ends an evaluation.

  A run ends at an answer that is a fault.  An answer may also be a fault in the place of
  a value, and this the run hands to what follows the question.  Wherever an expression
  asks, what follows raises such a fault at once, so that it too is the last answer and
  the result.

  * `Evaluation.transcript`: the questions of a run with the replies to them;
  * `Evaluation.Heeds`: whatever follows a question raises a fault it is handed;
  * `Evaluation.Heeds.last_of_fault`: the reply that tells a fault is the last one, and
    the fault is the result;
  * `Evaluation.Heeds.run_handingOn`: the run is the same where faults are handed on;
  * `Expr.eval_heeds`: every expression heeds the faults it is handed;
  * `Expr.eval_failing`: so the reply that tells a fault ends its evaluation.
-/
import Formulary.Proofs.Lookups

namespace Formulary

/-- A question and the reply to it. -/
structure Exchange where
  path : Path
  depth : Nat
  reply : Result

/-- The reply of an exchange tells a fault: it is one, or one stands in the place of the
value. -/
def Exchange.Fails (x : Exchange) (fault : Fault) : Prop :=
  x.reply.bind Value.toResult = .error fault

namespace Evaluation

variable {α β σ : Type}

/-! ## Transcripts -/

/-- A source of answers that writes down what it is asked and what it replies. -/
def transcribing (answer : Path → Nat → σ → Result × σ) (path : Path) (depth : Nat)
    (s : σ × List Exchange) : Result × σ × List Exchange :=
  let (reply, s') := answer path depth s.1
  (reply, s', s.2 ++ [⟨path, depth, reply⟩])

/-- The questions of a run and the replies to them, in order. -/
def transcript (answer : Path → Nat → σ → Result × σ) (x : Evaluation α) (s : σ) :
    List Exchange :=
  (x.run (transcribing answer) (s, [])).2.2

section

variable {answer : Path → Nat → σ → Result × σ} {s : σ}

/-- What was written down before stands in front of the transcript. -/
theorem transcribed_eq_append (x : Evaluation α) (s : σ) (asked : List Exchange) :
    (x.run (transcribing answer) (s, asked)).2.2 = asked ++ x.transcript answer s := by
  -- beside a run that starts with nothing written down, all that is ahead is `asked`
  let ahead (r r' : σ × List Exchange) : Prop := r.1 = r'.1 ∧ r.2 = asked ++ r'.2
  have hstep : ∀ path depth r r', ahead r r' →
      (transcribing answer path depth r).1 = (transcribing answer path depth r').1 ∧
        ahead (transcribing answer path depth r).2 (transcribing answer path depth r').2 := by
    rintro path depth ⟨t, log⟩ ⟨t', log'⟩ ⟨ht, hlog⟩
    obtain rfl : t = t' := ht
    obtain rfl : log = asked ++ log' := hlog
    exact ⟨rfl, rfl, List.append_assoc _ _ _⟩
  have hstart : ahead (s, asked) (s, []) := ⟨rfl, (List.append_nil asked).symm⟩
  exact (run_related hstep x hstart).2.2

@[simp] theorem transcript_done (a : α) : (done a).transcript answer s = [] := rfl

@[simp] theorem transcript_stop (reason : Stop) :
    (stop reason : Evaluation α).transcript answer s = [] := rfl

/-- Behind a value the run goes on. -/
theorem transcript_ask_ok {path : Path} {depth : Nat} {next : Value → Evaluation α} {v : Value}
    {s' : σ} (h : answer path depth s = (.ok v, s')) :
    (ask path depth next).transcript answer s =
      ⟨path, depth, .ok v⟩ :: (next v).transcript answer s' := by
  have hanswer : transcribing answer path depth (s, []) =
      (.ok v, s', [⟨path, depth, .ok v⟩]) := by
    simp only [transcribing, h, List.nil_append]
  rw [transcript, run, hanswer]
  exact transcribed_eq_append (next v) s' _

/-- Behind a fault it does not. -/
theorem transcript_ask_error {path : Path} {depth : Nat} {next : Value → Evaluation α}
    {fault : Fault} {s' : σ} (h : answer path depth s = (.error fault, s')) :
    (ask path depth next).transcript answer s = [⟨path, depth, .error fault⟩] := by
  have hanswer : transcribing answer path depth (s, []) =
      (.error fault, s', [⟨path, depth, .error fault⟩]) := by
    simp only [transcribing, h, List.nil_append]
  rw [transcript, run, hanswer]

end

/-! ## Faults that are handed on -/

/-- Whatever follows a question raises a fault that it is handed in the place of a
value. -/
inductive Heeds : Evaluation α → Prop
  | done (a : α) : Heeds (done a)
  | stop (reason : Stop) : Heeds (stop reason)
  | ask (path : Path) (depth : Nat) {next : Value → Evaluation α} :
      (∀ fault, next (.error fault) = raise fault) → (∀ v, Heeds (next v)) →
        Heeds (ask path depth next)

/-- The source of answers that hands on its faults in the place of values. -/
def handingOn (answer : Path → Nat → σ → Result × σ) (path : Path) (depth : Nat) (s : σ) :
    Result × σ :=
  match answer path depth s with
  | (.ok v, s') => (.ok v, s')
  | (.error fault, s') => (.ok (.error fault), s')

namespace Heeds

variable {x : Evaluation α} {answer : Path → Nat → σ → Result × σ}

theorem bind {f : α → Evaluation β} (hx : x.Heeds) (hf : ∀ a, (f a).Heeds) :
    (x.bind f).Heeds := by
  induction hx with
  | done a => exact hf a
  | stop reason => exact .stop reason
  | ask path depth hfault _ ih =>
    refine .ask path depth (fun fault => ?_) ih
    simp only [hfault]
    rfl

theorem ofResult (r : Except Fault α) : (Evaluation.ofResult r).Heeds := by
  cases r with
  | ok a => exact .done a
  | error fault => exact .stop _

theorem field (path : Path) (depth : Nat) : (Evaluation.field path depth).Heeds :=
  .ask path depth (fun _ => rfl) fun v => .ofResult v.toResult

/-- A reply that tells a fault is the last one of the run, and its fault is the result. -/
theorem last_of_fault (hx : x.Heeds) {s : σ} {before after : List Exchange} {e : Exchange}
    {fault : Fault} (hsplit : x.transcript answer s = before ++ e :: after)
    (hfails : e.Fails fault) : after = [] ∧ (x.run answer s).1 = .error (.raised fault) := by
  induction hx generalizing s before with
  | done a => simp at hsplit
  | stop reason => simp at hsplit
  | @ask path depth next hfault _ ih =>
    rw [run]
    cases hanswer : answer path depth s with
    | mk reply s' =>
      cases reply with
      | error told =>
        rw [transcript_ask_error hanswer, List.singleton_eq_append_iff] at hsplit
        obtain ⟨-, hhere⟩ | ⟨-, hlater⟩ := hsplit
        · obtain ⟨rfl, rfl⟩ := List.cons.inj hhere
          obtain rfl : told = fault := Except.error.inj hfails
          exact ⟨rfl, rfl⟩
        · exact absurd hlater (List.cons_ne_nil _ _)
      | ok v =>
        rw [transcript_ask_ok hanswer] at hsplit
        cases before with
        | cons first before => exact ih v (List.cons.inj hsplit).2
        | nil =>
          obtain ⟨rfl, hlater⟩ := List.cons.inj hsplit
          cases v with
          | error told =>
            obtain rfl : told = fault := Except.error.inj hfails
            simp only [hfault] at hlater ⊢
            exact ⟨hlater.symm, rfl⟩
          | _ => simp [Exchange.Fails, Except.bind, Value.toResult] at hfails

/-- It is all one whether faults are raised or handed on. -/
theorem run_handingOn (hx : x.Heeds) (s : σ) : x.run (handingOn answer) s = x.run answer s := by
  induction hx generalizing s with
  | done a => rfl
  | stop reason => rfl
  | ask path depth hfault _ ih =>
    rw [run, run, handingOn]
    cases hanswer : answer path depth s with
    | mk reply s' =>
      cases reply with
      | ok v => exact ih v s'
      | error fault =>
        simp only [hfault]
        rfl

end Heeds

/-- Evaluations that are one, and heed faults. -/
def heeding : Congruence where
  rel x y := x = y ∧ x.Heeds
  done a := ⟨rfl, .done a⟩
  raise fault := ⟨rfl, .stop (.raised fault)⟩
  bind := by
    rintro α β x y f g ⟨rfl, hx⟩ hfg
    obtain rfl : f = g := funext fun a => (hfg a).1
    exact ⟨rfl, hx.bind fun a => (hfg a).2⟩

def heedingLevels (limit : Nat) : heeding.Levels limit limit Eq fun _ => True :=
  .same (fun path d _ => ⟨rfl, .field path d⟩) ⟨rfl, .stop _⟩ Congruence.select_self

end Evaluation

/-! ## Faults that an expression is handed -/

namespace Expr

open Evaluation

variable {σ : Type}

/-- An expression heeds the faults that it is handed. -/
theorem eval_heeds (setting : Setting) (depth : Nat) (scope : Scope) (e : Expr) :
    (e.eval setting depth scope).Heeds := by
  have hscope : scope.Binds [] := fun _ h => absurd h List.not_mem_nil
  exact (eval_related (heedingLevels setting.limit) e rfl hscope fun _ _ => trivial).2

/-- **Main result.** If a reply to an expression tells a fault, then nothing is asked after
it, and the expression raises just this fault.  It ends so, with the same lookups made, also
where every fault is handed to it in the place of a value: no operator, no function and no
lambda goes on with one. -/
theorem eval_failing (setting : Setting) (depth : Nat) (scope : Scope) (e : Expr)
    (answer : Path → Nat → σ → Result × σ) (s : σ) {before after : List Exchange} {x : Exchange}
    {fault : Fault}
    (hsplit : (e.eval setting depth scope).transcript answer s = before ++ x :: after)
    (hfails : x.Fails fault) :
    after = [] ∧ ((e.eval setting depth scope).run answer s).1 = .error (.raised fault) ∧
      (e.eval setting depth scope).run (handingOn answer) s =
        (e.eval setting depth scope).run answer s := by
  have hheeds := eval_heeds setting depth scope e
  obtain ⟨hlast, hresult⟩ := hheeds.last_of_fault hsplit hfails
  exact ⟨hlast, hresult, hheeds.run_handingOn s⟩

/-- Two elements, and no field to add to them. -/
def unanswered (path : Path) : Result :=
  if path.root = "xs" then .ok (.array [.count 1, .count 2])
  else .ok (.error (.reference path.root))

/-- The sum for the first element fails: the second element is not visited, and what stands
beside the sums is not looked up. -/
theorem eval_shadowing_failing :
    let e := Expr.binary .or shadowing (.reference (.field "z"))
    let x : Exchange := ⟨.field "y", 4, .ok (.error (.reference "y"))⟩
    (e.eval ⟨8, ⟨0, 0⟩⟩ 0 []).transcript (steady unanswered) () =
        [⟨.field "xs", 3, .ok (.array [.count 1, .count 2])⟩, x] ∧
      x.Fails (.reference "y") ∧
      ((e.eval ⟨8, ⟨0, 0⟩⟩ 0 []).run (steady unanswered) ()).1 =
        .error (.raised (.reference "y")) ∧
      (e.eval ⟨8, ⟨0, 0⟩⟩ 0 []).run (handingOn (steady unanswered)) () =
        (e.eval ⟨8, ⟨0, 0⟩⟩ 0 []).run (steady unanswered) () := by
  intro e x
  have htranscript : (e.eval ⟨8, ⟨0, 0⟩⟩ 0 []).transcript (steady unanswered) () =
      [⟨.field "xs", 3, .ok (.array [.count 1, .count 2])⟩] ++ x :: [] := by rfl
  have hfails : x.Fails (.reference "y") := rfl
  obtain ⟨-, hresult, hhandedOn⟩ := eval_failing ⟨8, ⟨0, 0⟩⟩ 0 [] e _ () htranscript hfails
  exact ⟨htranscript, hfails, hresult, hhandedOn⟩

end Expr
end Formulary
