/-
  Sources of answers that reply by path.

  Such a source may change its state, but it replies to a path in one way only.  So what a run
  comes to and the paths that it asks for can be told without states, and of two evaluations
  one after the other they follow from those of each.

  * `Evaluation.paths`: the paths that are asked for under replies to paths, in order;
  * `Evaluation.Agree`: two evaluations come to the same and ask for the same paths, with
    `Evaluation.Agree.bind` for sequences and `Evaluation.Agree.run` for runs;
  * `Evaluation.Shortened.agree`: an evaluation that may stop early agrees with the other one,
    unless it goes below its limit.
-/
import Formulary.Proofs.Applied
import Formulary.Proofs.Budget

namespace Formulary.Evaluation

variable {α β σ : Type} {reply : Path → Result}

instance : LawfulMonad Evaluation := by
  refine LawfulMonad.mk' Evaluation (fun x => ?_) (fun _ _ => rfl) fun x f g => ?_
  · induction x with
    | done a => rfl
    | stop reason => rfl
    | ask path depth next ih => exact congrArg (ask path depth) (funext ih)
  · induction x with
    | done a => rfl
    | stop reason => rfl
    | ask path depth next ih => exact congrArg (ask path depth) (funext ih)

/-! ## Paths of an evaluation -/

/-- The paths that are asked for under replies that no state changes, in order. -/
def paths (reply : Path → Result) : Evaluation α → List Path
  | done _ => []
  | stop _ => []
  | ask path _ next => path :: match reply path with
    | .ok v => paths reply (next v)
    | .error _ => []

/-- Behind a value the paths of what follows are asked for, and behind a failure no more. -/
theorem paths_bind (x : Evaluation α) (f : α → Evaluation β) :
    (x >>= f).paths reply = x.paths reply ++ match x.result reply with
      | .ok a => (f a).paths reply
      | .error _ => [] := by
  induction x with
  | done a => rfl
  | stop reason => rfl
  | ask path depth next ih =>
    change (ask path depth fun v => next v >>= f).paths reply = _
    rw [paths, paths, result]
    cases reply path with
    | ok v => exact congrArg (path :: ·) (ih v)
    | error fault => rfl

/-- They are those of the questions of a run. -/
theorem map_fst_lookups {answer : Path → Nat → σ → Result × σ}
    (hanswer : ∀ path depth s, (answer path depth s).1 = reply path) (x : Evaluation α) (s : σ) :
    (x.lookups answer s).map Prod.fst = x.paths reply := by
  rw [lookups_course]
  induction x generalizing s with
  | done a => rfl
  | stop reason => cases reason <;> rfl
  | ask path depth next ih =>
    have hreply := hanswer path depth s
    have hasked : (Event.asked path).path? = some path := rfl
    rw [course, paths, ← hreply, List.filterMap_cons_some hasked]
    cases answer path depth s with
    | mk r s' =>
      cases r with
      | ok v => exact congrArg (path :: ·) (ih v s')
      | error fault => rfl

/-! ## Evaluations that agree -/

/-- Two evaluations come to the same, and they ask for the same paths in the same order. -/
structure Agree (reply : Path → Result) (x y : Evaluation α) : Prop where
  result : x.result reply = y.result reply
  paths : x.paths reply = y.paths reply

namespace Agree

variable {x y : Evaluation α}

/-- One after the other they agree, if what follows agrees for the value that they come to. -/
theorem bind {f g : α → Evaluation β} (h : Agree reply x y)
    (hfg : ∀ a, y.result reply = .ok a → Agree reply (f a) (g a)) :
    Agree reply (x >>= f) (y >>= g) := by
  constructor
  · rw [result_bind, result_bind, h.result]
    cases hy : y.result reply with
    | ok a => exact (hfg a hy).result
    | error reason => rfl
  · rw [paths_bind, paths_bind, h.result, h.paths]
    cases hy : y.result reply with
    | ok a => exact congrArg (_ ++ ·) (hfg a hy).paths
    | error reason => rfl

/-- Their runs come to the same, and ask for the same paths. -/
theorem run (h : Agree reply x y) {answer : Path → Nat → σ → Result × σ}
    (hanswer : ∀ path depth s, (answer path depth s).1 = reply path) (s : σ) :
    (x.run answer s).1 = (y.run answer s).1 ∧
      (x.lookups answer s).map Prod.fst = (y.lookups answer s).map Prod.fst := by
  simp only [fst_run_eq_result hanswer, map_fst_lookups hanswer]
  exact ⟨h.result, h.paths⟩

end Agree

/-- Unless it goes below its limit, an evaluation that may stop early agrees with the other
one. -/
theorem Shortened.agree {limit : Nat} {x y : Evaluation α} (h : Shortened limit x y)
    (hwithin : x.result reply ≠ .error (.tooDeep limit)) : Agree reply x y := by
  induction h with
  | done a => exact ⟨rfl, rfl⟩
  | raised fault => exact ⟨rfl, rfl⟩
  | cut y => exact absurd rfl hwithin
  | ask path depth depth' _ ih =>
    simp only [Evaluation.result] at hwithin
    constructor
    · rw [Evaluation.result, Evaluation.result]
      cases hreply : reply path with
      | ok v => rw [hreply] at hwithin; exact (ih v hwithin).result
      | error fault => rfl
    · rw [Evaluation.paths, Evaluation.paths]
      cases hreply : reply path with
      | ok v => rw [hreply] at hwithin; exact congrArg (path :: ·) (ih v hwithin).paths
      | error fault => rfl

end Formulary.Evaluation
