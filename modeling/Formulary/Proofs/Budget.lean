/-
  The limit of nesting is a budget.

  An evaluation that does not go below its limit does not depend on it: with no less room
  it goes on in the same way.  One that does is over with that.

  * `Evaluation.course`: what is asked for in a run, and whether it goes below the limit;
  * `Evaluation.lookups_course`, `Evaluation.exceeded_mem_course_iff`: these are its
    questions, and it goes below the limit when this is its result;
  * `Evaluation.Shortened.course_cases`: an evaluation that may stop early has the run
    of the other one, or it goes below its limit;
  * `Expr.eval_within_budget`: more room changes nothing, and to go below the limit is a
    fault after which nothing is asked for.
-/
import Formulary.Proofs.Lookups
import Formulary.Proofs.Nested

namespace Formulary

namespace Evaluation

/-- What happens in a run: it asks for a reference, or it is to go below the limit. -/
inductive Event where
  | asked (path : Path)
  | exceeded (limit : Nat)
  deriving DecidableEq

def Event.path? : Event → Option Path
  | asked path => some path
  | exceeded _ => none

variable {α σ : Type} {limit : Nat}

/-- What happens in a run, in order. -/
def course (answer : Path → Nat → σ → Result × σ) : Evaluation α → σ → List Event
  | done _, _ => []
  | stop (.raised _), _ => []
  | stop (.tooDeep limit), _ => [.exceeded limit]
  | ask path depth next, s =>
    .asked path :: match answer path depth s with
      | (.ok v, s') => course answer (next v) s'
      | (.error _, _) => []

section

variable {answer : Path → Nat → σ → Result × σ}

theorem map_fst_recorded (x : Evaluation α) (s : σ) (asked : List (Path × Nat)) :
    ((x.run (recording answer) (s, asked)).2.2).map Prod.fst =
      asked.map Prod.fst ++ (x.course answer s).filterMap Event.path? := by
  induction x generalizing s asked with
  | done a => simp [run, course]
  | stop reason => cases reason <;> simp [run, course, Event.path?]
  | ask path depth next ih =>
    rw [course, run, recording]
    cases answer path depth s with
    | mk reply s' =>
      cases reply with
      | ok v => simp [ih, Event.path?]
      | error fault => simp [Event.path?]

/-- The paths of its questions are those that it asks for. -/
theorem lookups_course (x : Evaluation α) (s : σ) :
    (x.lookups answer s).map Prod.fst = (x.course answer s).filterMap Event.path? :=
  map_fst_recorded x s []

/-- A run goes below the limit when its result is that it did. -/
theorem exceeded_mem_course_iff {x : Evaluation α} {s : σ} :
    .exceeded limit ∈ x.course answer s ↔ (x.run answer s).1 = .error (.tooDeep limit) := by
  induction x generalizing s with
  | done a => simp [course, run]
  | stop reason => cases reason <;> simp [course, run, eq_comm]
  | ask path depth next ih =>
    rw [course, run]
    cases answer path depth s with
    | mk reply s' =>
      cases reply with
      | ok v => simp [ih]
      | error fault => simp

/-- Nothing happens after that. -/
theorem course_of_exceeded {x : Evaluation α} {s : σ} (h : .exceeded limit ∈ x.course answer s) :
    ∃ paths : List Path, x.course answer s = paths.map .asked ++ [.exceeded limit] := by
  induction x generalizing s with
  | done a => exact absurd h List.not_mem_nil
  | stop reason =>
    cases reason with
    | raised fault => exact absurd h List.not_mem_nil
    | tooDeep limit' =>
      obtain rfl : limit = limit' := by simpa [course] using h
      exact ⟨[], rfl⟩
  | ask path depth next ih =>
    rw [course] at h ⊢
    cases hanswer : answer path depth s with
    | mk reply s' =>
      rw [hanswer] at h
      cases reply with
      | error fault => simp at h
      | ok v =>
        obtain ⟨paths, hcourse⟩ := ih v ((List.mem_cons.1 h).resolve_left nofun)
        exact ⟨path :: paths, congrArg (.asked path :: ·) hcourse⟩

/-- Where no answer depends on the depth, an evaluation that may stop early has the run of
the other one, or it goes below its limit. -/
theorem Shortened.course_cases {x y : Evaluation α} (h : Shortened limit x y)
    (hanswer : ∀ path depth depth' s, answer path depth s = answer path depth' s) (s : σ) :
    (x.run answer s = y.run answer s ∧ x.course answer s = y.course answer s) ∨
      .exceeded limit ∈ x.course answer s := by
  induction h generalizing s with
  | done a => exact .inl ⟨rfl, rfl⟩
  | raised fault => exact .inl ⟨rfl, rfl⟩
  | cut y => exact .inr List.mem_cons_self
  | ask path depth depth' _ ih =>
    rw [course, course, run, run, hanswer path depth depth' s]
    cases answer path depth' s with
    | mk reply s' =>
      cases reply with
      | error fault => exact .inl ⟨rfl, rfl⟩
      | ok v =>
        rcases ih v s' with ⟨hrun, hcourse⟩ | hexceeded
        · exact .inl ⟨hrun, congrArg (.asked path :: ·) hcourse⟩
        · exact .inr (List.mem_cons_of_mem _ hexceeded)

end

end Evaluation

namespace Expr

open Evaluation

variable {σ : Type}

/-- **Main result.** Under answers that do not depend on the depth, an evaluation that does
not go below its limit has the same result with no less room, leaves the source of answers in
the same state, asks for the same paths in the same order, and does not go below the other
limit.  One that does go below its limit asks for nothing after that, and its result is the
fault that tells of the limit. -/
theorem eval_within_budget (limit depth : Nat) (clock : Instant) (scope : Scope) (e : Expr)
    {answer : Path → Nat → σ → Result × σ}
    (hanswer : ∀ path depth depth' s, answer path depth s = answer path depth' s) (s : σ) :
    let x := e.eval ⟨limit, clock⟩ depth scope
    ((∀ n, .exceeded n ∉ x.course answer s) →
      ∀ limit' depth' : Nat, (limit : Int) - depth ≤ limit' - depth' →
        let y := e.eval ⟨limit', clock⟩ depth' scope
        y.run answer s = x.run answer s ∧
          (y.lookups answer s).map Prod.fst = (x.lookups answer s).map Prod.fst ∧
          ∀ n, .exceeded n ∉ y.course answer s) ∧
    ∀ n, .exceeded n ∈ x.course answer s →
      (∃ paths : List Path, x.course answer s = paths.map .asked ++ [.exceeded limit]) ∧
      Stop.settle (x.run answer s).1 =
        .error (.type "evaluate" s!"expression nested deeper than {limit} levels") := by
  intro x
  constructor
  · intro hwithin limit' depth' hroom y
    have hshortened : Shortened limit x y := eval_shortened (by omega) clock scope e
    rcases hshortened.course_cases hanswer s with ⟨hrun, hcourse⟩ | hexceeded
    · refine ⟨hrun.symm, ?_, hcourse ▸ hwithin⟩
      rw [lookups_course, lookups_course, hcourse]
    · exact absurd hexceeded (hwithin limit)
  · intro n hexceeded
    have hshortened : Shortened limit x x := eval_shortened (Nat.le_refl _) clock scope e
    have hresult := exceeded_mem_course_iff.1 hexceeded
    obtain rfl : n = limit := hshortened.stop_limit answer s hresult
    exact ⟨course_of_exceeded hexceeded, by rw [hresult]; rfl⟩

/-- Three levels are enough for a sum below a lambda.  With two it stops at the first of its
operands, so that `xs` is all that it asks for. -/
theorem eval_within_budget_shadowing :
    let answer : Path → Nat → Unit → Result × Unit := steady (shadowed .null)
    let x := shadowing.eval ⟨3, ⟨0, 0⟩⟩ 0 []
    let y := shadowing.eval ⟨9, ⟨0, 0⟩⟩ 5 []
    let z := shadowing.eval ⟨2, ⟨0, 0⟩⟩ 0 []
    (∀ path depth depth' s, answer path depth s = answer path depth' s) ∧
      x.course answer () = [.asked (.field "xs"), .asked (.field "y"), .asked (.field "y")] ∧
      y.run answer () = x.run answer () ∧
      z.course answer () = [.asked (.field "xs"), .exceeded 2] ∧
      Stop.settle (z.run answer ()).1 =
        .error (.type "evaluate" "expression nested deeper than 2 levels") := by
  intro answer x y z
  have hanswer : ∀ path depth depth' s, answer path depth s = answer path depth' s :=
    fun _ _ _ _ => rfl
  have hcourse : x.course answer () =
      [.asked (.field "xs"), .asked (.field "y"), .asked (.field "y")] := by decide
  have hexceeded : z.course answer () = [.asked (.field "xs"), .exceeded 2] := by decide
  have hwithin : ∀ n, .exceeded n ∉ x.course answer () := by simp [hcourse]
  obtain ⟨hmore, -⟩ := eval_within_budget 3 0 ⟨0, 0⟩ [] shadowing hanswer ()
  obtain ⟨-, hless⟩ := eval_within_budget 2 0 ⟨0, 0⟩ [] shadowing hanswer ()
  exact ⟨hanswer, hcourse, (hmore hwithin 9 5 (by decide)).1, hexceeded,
    (hless 2 (by simp [z, hexceeded])).2⟩

end Expr
end Formulary
