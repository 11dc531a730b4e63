/-
  What an expression looks up.

  Its references are found without evaluating it: the names that lambdas bind are
  kept in a list.  An evaluation keeps them in scopes.  That the two agree is
  `Expr.eval_asks`; here are its consequences for two sources of answers, each with
  a state of its own, that reply alike to questions about the references.

  * `Evaluation.replies`, `Evaluation.ReplyAlike`: sources of answers, and what they
    have in common;
  * `Evaluation.lookups`: the questions of a run, in order;
  * `Expr.eval_reads_references`: the result and the questions are the same under
    both, and every question is about a reference.
-/
import Formulary.Proofs.FreeRoots

namespace Formulary

namespace Evaluation

variable {α σ τ : Type}

/-! ## Sources of answers -/

/-- The replies of a source of answers to questions asked one after the other. -/
def replies (answer : Path → Nat → σ → Result × σ) : List (Path × Nat) → σ → List Result
  | [], _ => []
  | (path, depth) :: rest, s =>
    (answer path depth s).1 :: replies answer rest (answer path depth s).2

/-- Two sources of answers reply alike to all questions of some kind, in any order and
however often they are asked. -/
def ReplyAlike (kind : Path → Prop) (answer : Path → Nat → σ → Result × σ)
    (answer' : Path → Nat → τ → Result × τ) (s : σ) (t : τ) : Prop :=
  ∀ questions : List (Path × Nat), (∀ q ∈ questions, kind q.1) →
    replies answer questions s = replies answer' questions t

/-- The source of answers that no state changes. -/
def steady (answer : Path → Result) (path : Path) (_depth : Nat) (s : σ) : Result × σ :=
  (answer path, s)

section

variable {kind : Path → Prop} {answer : Path → Nat → σ → Result × σ}
  {answer' : Path → Nat → τ → Result × τ} {s : σ} {t : τ}

/-- The first reply is the same, and the sources reply alike after it. -/
theorem ReplyAlike.step (h : ReplyAlike kind answer answer' s t) {path : Path} (hpath : kind path)
    (depth : Nat) :
    (answer path depth s).1 = (answer' path depth t).1 ∧
      ReplyAlike kind answer answer' (answer path depth s).2 (answer' path depth t).2 := by
  have hcons : ∀ questions : List (Path × Nat), (∀ q ∈ questions, kind q.1) →
      (answer path depth s).1 :: replies answer questions (answer path depth s).2 =
        (answer' path depth t).1 :: replies answer' questions (answer' path depth t).2 := by
    intro questions hquestions
    exact h ((path, depth) :: questions) (List.forall_mem_cons.2 ⟨hpath, hquestions⟩)
  refine ⟨(List.cons.inj (hcons [] fun _ hq => absurd hq List.not_mem_nil)).1, ?_⟩
  exact fun questions hquestions => (List.cons.inj (hcons questions hquestions)).2

theorem replyAlike_steady {f g : Path → Result} (h : ∀ path, kind path → f path = g path) :
    ReplyAlike kind (steady f) (steady g) s t := by
  intro questions hquestions
  induction questions with
  | nil => rfl
  | cons q rest ih =>
    obtain ⟨hq, hrest⟩ := List.forall_mem_cons.1 hquestions
    exact congrArg₂ List.cons (h q.1 hq) (ih hrest)

end

/-! ## Questions of a run -/

/-- A source of answers that writes down what it is asked. -/
def recording (answer : Path → Nat → σ → Result × σ) (path : Path) (depth : Nat)
    (s : σ × List (Path × Nat)) : Result × σ × List (Path × Nat) :=
  let (result, s') := answer path depth s.1
  (result, s', s.2 ++ [(path, depth)])

/-- The questions of a run, in order. -/
def lookups (answer : Path → Nat → σ → Result × σ) (x : Evaluation α) (s : σ) :
    List (Path × Nat) :=
  (x.run (recording answer) (s, [])).2.2

/-- To write down the questions changes nothing. -/
theorem run_recording (answer : Path → Nat → σ → Result × σ) (x : Evaluation α) (s : σ)
    (asked : List (Path × Nat)) :
    (x.run (recording answer) (s, asked)).1 = (x.run answer s).1 ∧
      (x.run (recording answer) (s, asked)).2.1 = (x.run answer s).2 := by
  have hstep : ∀ path depth (r : σ × List (Path × Nat)) (t : σ), r.1 = t →
      (recording answer path depth r).1 = (answer path depth t).1 ∧
        (recording answer path depth r).2.1 = (answer path depth t).2 := by
    rintro path depth r t rfl
    exact ⟨rfl, rfl⟩
  exact run_related hstep x rfl

namespace Asks

variable {kind : Path → Prop} {x : Evaluation α} {answer : Path → Nat → σ → Result × σ}
  {answer' : Path → Nat → τ → Result × τ} {s : σ} {t : τ}

/-- What is asked is of the kind that the evaluation asks for. -/
theorem lookups_kind (hx : x.Asks kind) (answer : Path → Nat → σ → Result × σ) (s : σ) :
    ∀ q ∈ x.lookups answer s, kind q.1 := by
  -- a run is related to itself by the kind of the questions so far
  let related (r r' : σ × List (Path × Nat)) : Prop := r = r' ∧ ∀ q ∈ r.2, kind q.1
  have hstep : ∀ path depth r r', kind path → related r r' →
      (recording answer path depth r).1 = (recording answer path depth r').1 ∧
        related (recording answer path depth r).2 (recording answer path depth r').2 := by
    rintro path depth r _ hpath ⟨rfl, hr⟩
    refine ⟨rfl, rfl, fun q hq => ?_⟩
    rcases List.mem_append.1 hq with hq | hq
    · exact hr q hq
    · rw [List.mem_singleton.1 hq]
      exact hpath
  have hstart : related (s, []) (s, []) := ⟨rfl, fun _ hq => absurd hq List.not_mem_nil⟩
  exact (hx.run_related hstep hstart).2.2

/-- Sources that reply alike to what is asked make the same result, and are asked the
same. -/
theorem replyAlike (hx : x.Asks kind) (h : ReplyAlike kind answer answer' s t) :
    (x.run answer s).1 = (x.run answer' t).1 ∧ x.lookups answer s = x.lookups answer' t := by
  let related (r : σ × List (Path × Nat)) (r' : τ × List (Path × Nat)) : Prop :=
    ReplyAlike kind answer answer' r.1 r'.1 ∧ r.2 = r'.2
  have hstep : ∀ path depth r r', kind path → related r r' →
      (recording answer path depth r).1 = (recording answer' path depth r').1 ∧
        related (recording answer path depth r).2 (recording answer' path depth r').2 := by
    intro path depth r r' hpath hr
    obtain ⟨hreply, halike⟩ := hr.1.step hpath depth
    exact ⟨hreply, halike, congrArg (· ++ [(path, depth)]) hr.2⟩
  have hstart : related (s, []) (t, []) := ⟨h, rfl⟩
  obtain ⟨hresult, -, hasked⟩ := hx.run_related hstep hstart
  rw [(run_recording answer x s []).1, (run_recording answer' x t []).1] at hresult
  exact ⟨hresult, hasked⟩

end Asks

end Evaluation

/-! ## Questions of an expression -/

namespace Expr

open Evaluation

variable {σ τ : Type}

/-- **Main result.** An expression has one result under any two sources of answers that
reply alike to questions about its references; it asks both of them the same questions
in the same order, and only about its references.  A stop at the limit of nesting is a
result too. -/
theorem eval_reads_references (setting : Setting) (depth : Nat) (e : Expr)
    {answer : Path → Nat → σ → Result × σ} {answer' : Path → Nat → τ → Result × τ} {s : σ} {t : τ}
    (h : ReplyAlike (fun path => path.root ∈ e.references) answer answer' s t) :
    ((e.eval setting depth []).run answer s).1 = ((e.eval setting depth []).run answer' t).1 ∧
      (e.eval setting depth []).lookups answer s = (e.eval setting depth []).lookups answer' t ∧
      ∀ q ∈ (e.eval setting depth []).lookups answer s, q.1.root ∈ e.references := by
  have hasks := eval_asks setting depth e
  obtain ⟨hresult, hlookups⟩ := hasks.replyAlike h
  exact ⟨hresult, hlookups, hasks.lookups_kind answer s⟩

/-- The sums of `x` and `y` for the elements `x` of `xs`. -/
def shadowing : Expr :=
  .call "map" [.reference (.field "xs"),
    .lambda ["x"] (.binary .add (.reference (.field "x")) (.reference (.field "y")))]

/-- Two elements, a number to add to them, and another value for the field `x`. -/
def shadowed (x : Value) (path : Path) : Result :=
  if path.root = "xs" then .ok (.array [.count 1, .count 2])
  else if path.root = "y" then .ok (.count 10)
  else .ok x

/-- The parameter hides the field of its name, so that what the field holds is not
looked up. -/
theorem eval_shadowing :
    shadowed .null (.field "x") ≠ shadowed (.boolean true) (.field "x") ∧
      ReplyAlike (fun path => path.root ∈ shadowing.references) (steady (shadowed .null))
        (steady (shadowed (.boolean true))) () () ∧
      ((shadowing.eval ⟨8, ⟨0, 0⟩⟩ 0 []).run (steady (shadowed .null)) ()).1 =
        ((shadowing.eval ⟨8, ⟨0, 0⟩⟩ 0 []).run (steady (shadowed (.boolean true))) ()).1 ∧
      (shadowing.eval ⟨8, ⟨0, 0⟩⟩ 0 []).lookups (steady (shadowed .null)) () =
        [(.field "xs", 2), (.field "y", 3), (.field "y", 3)] := by
  have hreferences : shadowing.references.names = ["xs", "y"] := by decide
  have halike : ReplyAlike (fun path => path.root ∈ shadowing.references)
      (steady (shadowed .null)) (steady (shadowed (.boolean true))) () () := by
    refine replyAlike_steady fun path hpath => ?_
    have hpath : path.root ∈ ["xs", "y"] := hreferences ▸ hpath
    rw [List.mem_cons, List.mem_singleton] at hpath
    rcases hpath with hroot | hroot <;> rw [shadowed, shadowed, hroot] <;> rfl
  obtain ⟨hresult, -, -⟩ := eval_reads_references ⟨8, ⟨0, 0⟩⟩ 0 shadowing halike
  exact ⟨nofun, halike, hresult, by decide⟩

end Expr
end Formulary
