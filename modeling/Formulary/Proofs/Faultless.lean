/-
  Values without faults inside.

  The answer to a question may be a fault in the place of a value.  What is put into an
  array, bound to a parameter or looked up in an object is never an answer as it came: a
  fault is raised before.  So if no answer has a fault further inside, no value that an
  expression comes to has one at all.

  * `Value.Faultless`, `Exchange.Clear`: values without faults, and replies that are such
    or tell a fault;
  * `Provenance.Yields.transcript`: what an evaluation comes to, by the replies to what it
    did ask;
  * `Expr.eval_faultless`: expressions that tokens denote come to faultless values.
-/
import Formulary.Proofs.Constants
import Formulary.Proofs.Failing
import Mathlib

namespace Formulary

/-- No fault stands inside a value, nor in its place. -/
def Value.Faultless (v : Value) : Prop := ∀ fault, ¬ v.Holds fault

/-- A reply is a fault, or a fault in the place of a value, or a value without faults. -/
def Exchange.Clear (x : Exchange) : Prop :=
  ∀ v, x.reply = .ok v → v.Faultless ∨ ∃ fault, v = .error fault

theorem Exchange.Clear.of_only {path : Path} {depth : Nat} {v : Value}
    (h : v.Only fun _ => False) : Clear ⟨path, depth, .ok v⟩ := by
  intro w hw
  obtain rfl : v = w := Except.ok.inj hw
  exact .inl h

namespace Provenance

open Evaluation

/-- Nothing stands inside values, and everything may be raised. -/
def raising : Provenance where
  inside _ := False
  raised _ := True
  of_inside := False.elim
  of_plain _ := trivial

variable {P : Provenance} {α σ : Type} {answer : Path → Nat → σ → Result × σ}

/-- A run comes to what its evaluation yields, if the replies to what it did ask come to
fine values. -/
theorem Yields.transcript {good : α → Prop} {x : Evaluation α} (hx : P.Yields good x) {s : σ}
    (hreplies : ∀ e ∈ x.transcript answer s, P.Comes P.Fine (e.reply.bind Value.toResult)) :
    P.Comes good (Stop.settle (x.run answer s).1) := by
  induction hx generalizing s with
  | done h => exact .ok h
  | raise h => exact .error h
  | tooDeep limit => exact .plain trivial
  | ask path depth _ ih =>
    rw [Evaluation.run]
    cases hanswer : answer path depth s with
    | mk reply s' =>
      cases reply with
      | ok v =>
        rw [transcript_ask_ok hanswer, List.forall_mem_cons] at hreplies
        exact ih v hreplies.1 hreplies.2
      | error fault =>
        rw [transcript_ask_error hanswer, List.forall_mem_singleton] at hreplies
        cases hreplies with
        | error h => exact .error h

/-- A clear reply comes to a value without faults, unless it tells one. -/
theorem comes_of_clear {x : Exchange} (h : x.Clear) :
    raising.Comes raising.Fine (x.reply.bind Value.toResult) := by
  cases hreply : x.reply with
  | error fault => exact .error trivial
  | ok v =>
    rcases h v hreply with hv | ⟨fault, rfl⟩
    · exact .toResult hv
    · exact .error trivial

end Provenance

namespace Expr

open Evaluation

variable {σ : Type}

/-- **Main result.** Let an expression that tokens denote be evaluated in a scope of values
without faults, and let no reply have a fault inside its value, though it may be a fault or
have one in the place of its value.  If the expression comes to a value, then no fault
stands inside it, nor in its place. -/
theorem eval_faultless {nesting finish : Nat} {ts : List Located} {e : Expr}
    (he : ofTokens nesting finish ts = .ok e) (setting : Setting) (depth : Nat) {scope : Scope}
    (hscope : ∀ frame ∈ scope, ∀ b ∈ frame, b.2.Faultless)
    {answer : Path → Nat → σ → Result × σ} {s : σ}
    (hclear : ∀ x ∈ (e.eval setting depth scope).transcript answer s, x.Clear) {v : Value}
    (hv : ((e.eval setting depth scope).run answer s).1 = .ok v) : v.Faultless := by
  have hwritten : e.Written := (derives_of_ofTokens he).inductive inductive_written
  have hyields : Provenance.raising.Yields Provenance.raising.Fine (e.eval setting depth scope) :=
    Provenance.eval e hscope hwritten
  have hcomes := hyields.transcript fun x hx => Provenance.comes_of_clear (hclear x hx)
  rw [hv] at hcomes
  cases hcomes with
  | ok h => exact h

/-- The tokens of `map(xs, (x) -> [x, y])`. -/
def pairing : List Located :=
  [⟨.identifier "map", 0⟩, ⟨.openParen, 3⟩, ⟨.identifier "xs", 4⟩, ⟨.comma, 6⟩, ⟨.openParen, 8⟩,
    ⟨.identifier "x", 9⟩, ⟨.closeParen, 10⟩, ⟨.arrow, 12⟩, ⟨.openBracket, 15⟩,
    ⟨.identifier "x", 16⟩, ⟨.comma, 17⟩, ⟨.identifier "y", 19⟩, ⟨.closeBracket, 20⟩,
    ⟨.closeParen, 21⟩]

/-- Pairs of an element of `xs` and `y`. -/
def pairs : Expr :=
  .call "map" [.reference (.field "xs"),
    .lambda ["x"] (.array [.reference (.field "x"), .reference (.field "y")])]

/-- Each pair holds an element of an answer and an answer. -/
theorem eval_pairs_faultless :
    ofTokens 8 22 pairing = .ok pairs ∧
      (∀ x ∈ (pairs.eval ⟨8, ⟨0, 0⟩⟩ 0 []).transcript (steady (shadowed .null)) (), x.Clear) ∧
      ∃ v, ((pairs.eval ⟨8, ⟨0, 0⟩⟩ 0 []).run (steady (shadowed .null)) ()).1 = .ok v ∧
        v.Faultless := by
  have hparsed : ofTokens 8 22 pairing = .ok pairs := by cbv
  have htranscript : (pairs.eval ⟨8, ⟨0, 0⟩⟩ 0 []).transcript (steady (shadowed .null)) () =
      [⟨.field "xs", 2, .ok (.array [.count 1, .count 2])⟩, ⟨.field "y", 3, .ok (.count 10)⟩,
        ⟨.field "y", 3, .ok (.count 10)⟩] := rfl
  have hclear : ∀ x ∈ (pairs.eval ⟨8, ⟨0, 0⟩⟩ 0 []).transcript (steady (shadowed .null)) (),
      x.Clear := by
    have hcount : ∀ n, (Value.count n).Only fun _ => False := fun n => Value.only_number _
    simp only [htranscript, List.forall_mem_cons, List.not_mem_nil, false_implies, implies_true,
      and_true]
    refine ⟨.of_only (Value.only_array.2 ?_), .of_only (hcount 10), .of_only (hcount 10)⟩
    exact List.forall_mem_cons.2 ⟨hcount 1, List.forall_mem_singleton.2 (hcount 2)⟩
  have hv : ((pairs.eval ⟨8, ⟨0, 0⟩⟩ 0 []).run (steady (shadowed .null)) ()).1 =
      .ok (.array [.array [.count 1, .count 10], .array [.count 2, .count 10]]) := rfl
  have hscope : ∀ frame ∈ ([] : Scope), ∀ b ∈ frame, b.2.Faultless :=
    fun _ h => absurd h List.not_mem_nil
  exact ⟨hparsed, hclear, _, hv, eval_faultless hparsed ⟨8, ⟨0, 0⟩⟩ 0 hscope hclear hv⟩

end Expr
end Formulary
