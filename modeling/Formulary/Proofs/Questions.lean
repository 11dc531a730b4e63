/-
  What evaluations ask, and what they make of the answers.

  * `Evaluation.Asks`: an evaluation asks for paths of some kind only;
  * `Evaluation.result`: the result under answers that no state changes;
  * `Evaluation.run_eq_result`: a run whose answers are steady has this result;
  * `Alike`: results that are equal, up to which circle a fault lists;
  * `Evaluation.alike_result`: alike answers make alike results.
-/
import Formulary.Evaluation
import Formulary.Memo
import Mathlib.Tactic.Common

namespace Formulary

/-! ## Alike results -/

/-- Two results are equal, or both tell that fields refer to each other in a
circle. -/
def Alike (r s : Result) : Prop :=
  r = s ∨ ∃ fields fields', r = .error (.cycle fields) ∧ s = .error (.cycle fields')

namespace Alike

variable {r s t : Result}

theorem refl (r : Result) : Alike r r := .inl rfl

theorem cycles (fields fields' : List String) :
    Alike (.error (.cycle fields)) (.error (.cycle fields')) :=
  .inr ⟨fields, fields', rfl, rfl⟩

theorem symm (h : Alike r s) : Alike s r := by
  rcases h with rfl | ⟨fields, fields', rfl, rfl⟩
  · exact refl r
  · exact cycles fields' fields

theorem trans (h : Alike r s) (h' : Alike s t) : Alike r t := by
  rcases h with rfl | ⟨fields, fields', rfl, rfl⟩
  · exact h'
  · rcases h' with rfl | ⟨_, fields'', _, rfl⟩
    · exact cycles fields fields'
    · exact cycles fields fields''

theorem bind (h : Alike r s) (f : Value → Result) : Alike (r.bind f) (s.bind f) := by
  rcases h with rfl | ⟨fields, fields', rfl, rfl⟩
  · exact refl _
  · exact cycles fields fields'

theorem shown_eq (h : Alike r s) (kind : FieldKind) : Value.shown kind r = Value.shown kind s := by
  rcases h with rfl | ⟨fields, fields', rfl, rfl⟩
  · rfl
  · rfl

end Alike

/-- A result is a fault of some sort. -/
def Tells (why : Fault → Prop) (r : Result) : Prop := ∃ fault, r = .error fault ∧ why fault

namespace Evaluation

variable {α σ τ : Type}

/-! ## Questions -/

/-- An evaluation asks for paths of some kind only, whatever it is answered. -/
inductive Asks (kind : Path → Prop) : Evaluation α → Prop
  | done (a : α) : Asks kind (done a)
  | stop (reason : Stop) : Asks kind (stop reason)
  | ask {path : Path} (hpath : kind path) (depth : Nat) {next : Value → Evaluation α} :
      (∀ v, Asks kind (next v)) → Asks kind (ask path depth next)

theorem Asks.bind {β : Type} {kind : Path → Prop} {x : Evaluation α} {f : α → Evaluation β}
    (hx : x.Asks kind) (hf : ∀ a, (f a).Asks kind) : (x.bind f).Asks kind := by
  induction hx with
  | done a => exact hf a
  | stop reason => exact .stop reason
  | ask hpath depth _ ih => exact .ask hpath depth ih

/-! ## Results -/

/-- The result under answers that no state changes. -/
def result (answer : Path → Result) : Evaluation α → Except Stop α
  | done a => .ok a
  | stop reason => .error reason
  | ask path _ next =>
    match answer path with
    | .ok v => result answer (next v)
    | .error fault => .error (.raised fault)

section

variable {kind : Path → Prop} {x : Evaluation α}

/-- Where every question keeps the state in a set of states in which answers are
steady, a run has the result under these answers. -/
theorem run_eq_result {run : Path → Nat → σ → Result × σ} (answer : Path → Result)
    (steady : σ → Prop) (hx : x.Asks kind)
    (hrun : ∀ path depth s, kind path → steady s →
      (run path depth s).1 = answer path ∧ steady (run path depth s).2)
    {s : σ} (hs : steady s) : (x.run run s).1 = x.result answer ∧ steady (x.run run s).2 := by
  induction hx generalizing s with
  | done a => exact ⟨rfl, hs⟩
  | stop reason => exact ⟨rfl, hs⟩
  | @ask path hpath depth next _ ih =>
    obtain ⟨hanswer, hs'⟩ := hrun path depth s hpath hs
    rw [Evaluation.run, Evaluation.result, ← hanswer]
    cases hr : run path depth s with
    | mk r s' =>
      rw [hr] at hs'
      cases r with
      | ok v => exact ih v hs'
      | error fault => exact ⟨rfl, hs'⟩

theorem result_congr {answer answer' : Path → Result} (hx : x.Asks kind)
    (h : ∀ path, kind path → answer path = answer' path) :
    x.result answer = x.result answer' := by
  induction hx with
  | done a => rfl
  | stop reason => rfl
  | @ask path hpath depth next _ ih =>
    rw [Evaluation.result, Evaluation.result, h path hpath]
    cases answer' path with
    | ok v => exact ih v
    | error fault => rfl

/-- Alike answers make alike results: an answer that is a fault ends the evaluation. -/
theorem alike_result {x : Evaluation Value} {answer answer' : Path → Result} (hx : x.Asks kind)
    (h : ∀ path, kind path → Alike (answer path) (answer' path)) :
    Alike (Stop.settle (x.result answer)) (Stop.settle (x.result answer')) := by
  induction hx with
  | done a => exact .refl _
  | stop reason => exact .refl _
  | @ask path hpath depth next _ ih =>
    rw [Evaluation.result, Evaluation.result]
    rcases h path hpath with heq | ⟨fields, fields', hl, hr⟩
    · rw [heq]
      cases answer' path with
      | ok v => exact ih v
      | error fault => exact .refl _
    · rw [hl, hr]
      exact .cycles fields fields'

end

/-! ## Runs -/

/-- What every answer keeps, a run keeps. -/
theorem run_keeps {run : Path → Nat → σ → Result × σ} (kept : σ → Prop)
    (hrun : ∀ path depth s, kept s → kept (run path depth s).2) (x : Evaluation α) {s : σ}
    (hs : kept s) : kept (x.run run s).2 := by
  induction x generalizing s with
  | done a => exact hs
  | stop reason => exact hs
  | ask path depth next ih =>
    have hs' := hrun path depth s hs
    rw [Evaluation.run]
    cases hr : run path depth s with
    | mk r s' =>
      rw [hr] at hs'
      cases r with
      | ok v => exact ih v hs'
      | error fault => exact hs'

/-- A run that comes to a state of some sort came to it with an answer that is a fault. -/
theorem run_broken {run : Path → Nat → σ → Result × σ} (broken : σ → Prop) {why : Fault → Prop}
    (hrun : ∀ path depth s, ¬ broken s → broken (run path depth s).2 →
      ∃ fault, (run path depth s).1 = .error fault ∧ why fault)
    (x : Evaluation α) {s : σ} (hs : ¬ broken s) (h : broken (x.run run s).2) :
    ∃ fault, (x.run run s).1 = .error (.raised fault) ∧ why fault := by
  induction x generalizing s with
  | done a => exact absurd h hs
  | stop reason => exact absurd h hs
  | ask path depth next ih =>
    have hanswer := hrun path depth s hs
    rw [Evaluation.run] at h ⊢
    cases hr : run path depth s with
    | mk r s' =>
      rw [hr] at h hanswer
      cases r with
      | ok v =>
        by_cases hs' : broken s'
        · obtain ⟨fault, hfault, -⟩ := hanswer hs'
          simp at hfault
        · exact ih v hs' h
      | error fault =>
        obtain ⟨fault', hfault, hwhy⟩ := hanswer h
        obtain rfl := Except.error.inj hfault
        exact ⟨fault, rfl, hwhy⟩

/-- Where every question has a steady answer unless it breaks off, a run has the result
under these answers unless it breaks off.  If the result does not tell of some faults
then no answer does: a fault ends the run. -/
theorem Asks.run_cases {run : Path → Nat → σ → Result × σ} {answer : Path → Result}
    {kind : Path → Prop} {x : Evaluation α} (hx : x.Asks kind) {why : Fault → Prop}
    (steady broken : σ → Prop)
    (hrun : ∀ path depth s, kind path → steady s → ¬ Tells why (answer path) →
      (run path depth s).1 = answer path ∧ steady (run path depth s).2 ∨
        (∃ fault, (run path depth s).1 = .error fault) ∧ broken (run path depth s).2)
    (hresult : ∀ fault, x.result answer = .error (.raised fault) → ¬ why fault) {s : σ}
    (hs : steady s) :
    (x.run run s).1 = x.result answer ∧ steady (x.run run s).2 ∨
      (∃ fault, (x.run run s).1 = .error (.raised fault)) ∧ broken (x.run run s).2 := by
  induction hx generalizing s with
  | done a => exact .inl ⟨rfl, hs⟩
  | stop reason => exact .inl ⟨rfl, hs⟩
  | @ask path hpath depth next _ ih =>
    have hanswer : ¬ Tells why (answer path) := by
      rintro ⟨fault, hfault, hwhy⟩
      exact hresult fault (by rw [Evaluation.result, hfault]) hwhy
    rw [Evaluation.run]
    rcases hrun path depth s hpath hs hanswer with ⟨heq, hs'⟩ | ⟨⟨fault, heq⟩, hbroken⟩
    · rw [Evaluation.result, ← heq] at hresult ⊢
      cases hr : run path depth s with
      | mk r s' =>
        rw [hr] at hs' hresult
        cases r with
        | ok v => exact ih v hresult hs'
        | error fault => exact .inl ⟨rfl, hs'⟩
    · refine .inr ?_
      cases hr : run path depth s with
      | mk r s' =>
        rw [hr] at heq hbroken
        obtain rfl : r = .error fault := heq
        exact ⟨⟨fault, rfl⟩, hbroken⟩

/-- Two runs from related states, whose answers to what is asked are related, have one
result and end in related states. -/
theorem Asks.run_related {run : Path → Nat → σ → Result × σ}
    {run' : Path → Nat → τ → Result × τ} {related : σ → τ → Prop} {kind : Path → Prop}
    (hrun : ∀ path depth s t, kind path → related s t →
      (run path depth s).1 = (run' path depth t).1 ∧
        related (run path depth s).2 (run' path depth t).2)
    {x : Evaluation α} (hx : x.Asks kind) {s : σ} {t : τ} (hst : related s t) :
    (x.run run s).1 = (x.run run' t).1 ∧ related (x.run run s).2 (x.run run' t).2 := by
  induction hx generalizing s t with
  | done a => exact ⟨rfl, hst⟩
  | stop reason => exact ⟨rfl, hst⟩
  | @ask path hpath depth next _ ih =>
    obtain ⟨heq, hst'⟩ := hrun path depth s t hpath hst
    rw [Evaluation.run, Evaluation.run]
    cases hr : run path depth s with
    | mk r s' =>
      cases hr' : run' path depth t with
      | mk r' t' =>
        rw [hr, hr'] at heq hst'
        obtain rfl : r = r' := heq
        cases r with
        | ok v => exact ih v hst'
        | error fault => exact ⟨rfl, hst'⟩

theorem Asks.any (x : Evaluation α) : x.Asks fun _ => True := by
  induction x with
  | done a => exact .done a
  | stop reason => exact .stop reason
  | ask path depth next ih => exact .ask trivial depth ih

theorem run_related {run : Path → Nat → σ → Result × σ} {run' : Path → Nat → τ → Result × τ}
    {related : σ → τ → Prop}
    (hrun : ∀ path depth s t, related s t →
      (run path depth s).1 = (run' path depth t).1 ∧
        related (run path depth s).2 (run' path depth t).2)
    (x : Evaluation α) {s : σ} {t : τ} (hst : related s t) :
    (x.run run s).1 = (x.run run' t).1 ∧ related (x.run run s).2 (x.run run' t).2 :=
  (Asks.any x).run_related (fun path depth s t _ => hrun path depth s t) hst

end Evaluation
end Formulary
