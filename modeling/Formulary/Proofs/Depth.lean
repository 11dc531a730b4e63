/-
  How deep texts are nested, for the parsers and for evaluations.

  A parser counts expressions inside expressions, prefixes and lambdas; that an operator
  takes all that stands on its left, and an index all that stands before it, it does not
  count.  An evaluation goes one level down for each of these.

  * `Expr.levels`: the levels of an evaluation;
  * `Expr.nesting`, `Expr.chained`: the levels that parsers count, and those that they do
    not;
  * `Derives.nesting_le`: a derivation has the levels that parsers count;
  * `Expr.eval_fits`: where there is room for its levels, an evaluation meets no limit;
  * `Expr.ofText_fits`: what a text denotes has as many levels as were allowed, and those
    that parsers do not count.
-/
import Mathlib
import Formulary.Expr.Eval
import Formulary.Proofs.Accepted
import Formulary.Proofs.Uniform

namespace Formulary

namespace Expr

/-! ## Levels -/

mutual

/-- The levels of the evaluation of an expression.  The body of a lambda is evaluated where
the lambda stands. -/
def levels : Expr → Nat
  | literal _ | reference _ => 1
  | unary _ operand => levels operand + 1
  | binary _ left right => max (levels left) (levels right) + 1
  | call _ args => levelsAll args + 1
  | array items => levelsAll items + 1
  | .index target position => max (levels target) (levels position) + 1
  | lambda _ body => levels body

def levelsAll : List Expr → Nat
  | [] => 0
  | e :: rest => max (levels e) (levelsAll rest)

end

mutual

/-- The levels that a parser counts, if nothing stands in parentheses that need not. -/
def nesting : Expr → Nat
  | literal _ | reference _ => 1
  | unary _ operand => nesting operand + 1
  | binary _ left right => max (nesting left) (nesting right)
  | call _ args => nestingAll args + 1
  | array items => nestingAll items + 1
  | .index target position => max (nesting target) (nesting position + 1)
  | lambda _ body => nesting body + 1

def nestingAll : List Expr → Nat
  | [] => 0
  | e :: rest => max (nesting e) (nestingAll rest)

end

mutual

/-- How many binary operators and indices the levels go down that a parser does not count. -/
def chained : Expr → Nat
  | literal _ | reference _ => 0
  | unary _ operand => chained operand
  | binary _ left right => max (chained left) (chained right) + 1
  | call _ args => chainedAll args
  | array items => chainedAll items
  | .index target position => max (chained target + 1) (chained position)
  | lambda _ body => chained body

def chainedAll : List Expr → Nat
  | [] => 0
  | e :: rest => max (chained e) (chainedAll rest)

end

theorem levels_pos (e : Expr) : 0 < e.levels := by
  cases e with
  | literal v => exact Nat.one_pos
  | reference path => exact Nat.one_pos
  | lambda params body => exact levels_pos body
  | _ => exact Nat.succ_pos _

mutual

theorem levels_le (e : Expr) : e.levels ≤ e.nesting + e.chained := by
  cases e with
  | literal v => exact Nat.le_refl _
  | reference path => exact Nat.le_refl _
  | unary op operand =>
    have := levels_le operand
    simp only [levels, nesting, chained]
    omega
  | binary op left right =>
    have := levels_le left
    have := levels_le right
    simp only [levels, nesting, chained]
    omega
  | call name args =>
    have := levelsAll_le args
    simp only [levels, nesting, chained]
    omega
  | array items =>
    have := levelsAll_le items
    simp only [levels, nesting, chained]
    omega
  | index target position =>
    have := levels_le target
    have := levels_le position
    simp only [levels, nesting, chained]
    omega
  | lambda params body =>
    have := levels_le body
    simp only [levels, nesting, chained]
    omega

theorem levelsAll_le (es : List Expr) : levelsAll es ≤ nestingAll es + chainedAll es := by
  cases es with
  | nil => exact Nat.le_refl _
  | cons e rest =>
    have := levels_le e
    have := levelsAll_le rest
    simp only [levelsAll, nestingAll, chainedAll]
    omega

end

theorem nestingAll_le {n : Nat} {es : List Expr} (h : ∀ e ∈ es, e.nesting ≤ n) :
    nestingAll es ≤ n := by
  induction es with
  | nil => exact Nat.zero_le _
  | cons e rest ih =>
    obtain ⟨he, hrest⟩ := List.forall_mem_cons.1 h
    exact Nat.max_le.2 ⟨he, ih hrest⟩

end Expr

/-- A derivation has the levels that parsers count. -/
theorem Derives.nesting_le {n : Nat} {phrase : Phrase} {ts : List Token} {e : Expr}
    (h : Derives n phrase ts e) : e.nesting ≤ n := by
  induction h with
  | operand _ ih => exact ih
  | tighter _ ih => exact ih
  | element _ ih => exact ih
  | primary _ ih => exact ih
  | expression _ ih => exact ih
  | group _ ih => exact Nat.le_succ_of_le ih
  | binary _ _ _ ihl ihr => exact Nat.max_le.2 ⟨ihl, ihr⟩
  | unary _ _ ih => exact Nat.succ_le_succ ih
  | index _ _ iht ihp => exact Nat.max_le.2 ⟨iht, Nat.succ_le_succ ihp⟩
  | number n _ => exact Nat.succ_le_succ n.zero_le
  | text n _ => exact Nat.succ_le_succ n.zero_le
  | reference n _ => exact Nat.succ_le_succ n.zero_le
  | constant n _ => exact Nat.succ_le_succ n.zero_le
  | name n _ _ => exact Nat.succ_le_succ n.zero_le
  | call _ _ ih => exact Nat.succ_le_succ (Expr.nestingAll_le (List.forall_mem_map.2 ih))
  | array _ ih => exact Nat.succ_le_succ (Expr.nestingAll_le (List.forall_mem_map.2 ih))
  | lambda _ _ ih => exact Nat.succ_le_succ ih
  | lambdas _ _ _ _ ih => exact Nat.succ_le_succ ih

/-! ## Evaluations without limits -/

/-- Whatever it is answered, an evaluation does not stop at a limit of nesting. -/
inductive Evaluation.Fits {α : Type} : Evaluation α → Prop
  | done (a : α) : Fits (done a)
  | raise (fault : Fault) : Fits (raise fault)
  | ask (path : Path) (depth : Nat) {next : Value → Evaluation α} :
      (∀ v, Fits (next v)) → Fits (ask path depth next)

namespace Evaluation.Fits

variable {α β σ : Type}

theorem bind {x : Evaluation α} {f : α → Evaluation β} (hx : x.Fits) (hf : ∀ a, (f a).Fits) :
    (x.bind f).Fits := by
  induction hx with
  | done a => exact hf a
  | raise fault => exact .raise fault
  | ask path depth _ ih => exact .ask path depth ih

theorem run_ne {x : Evaluation α} (h : x.Fits) (answer : Path → Nat → σ → Except Fault Value × σ)
    (s : σ) (limit : Nat) : (x.run answer s).1 ≠ .error (.tooDeep limit) := by
  induction h generalizing s with
  | done a => simp [run]
  | raise fault => simp [run, Evaluation.raise]
  | ask path depth _ ih =>
    rw [run]
    cases answer path depth s with
    | mk r t =>
      cases r with
      | ok v => exact ih v t
      | error fault => simp

end Evaluation.Fits

namespace Expr

/-- Evaluations that are one, and that do not stop at a limit. -/
def fitting : Congruence where
  rel x y := x = y ∧ x.Fits
  done a := ⟨rfl, .done a⟩
  raise fault := ⟨rfl, .raise fault⟩
  bind := by
    rintro α β x y f g ⟨rfl, hx⟩ hfg
    obtain rfl : f = g := funext fun a => (hfg a).1
    exact ⟨rfl, hx.bind fun a => (hfg a).2⟩

theorem fits_ofResult {α : Type} (r : Except Fault α) : (Evaluation.ofResult r).Fits :=
  (Congruence.ofResult (R := fitting) r).2

variable (setting : Setting)

mutual

/-- Where there is room for its levels, the evaluation of an expression fits. -/
theorem eval_fits {depth : Nat} (scope : Scope) (e : Expr)
    (h : depth + e.levels ≤ setting.limit) : (eval setting depth scope e).Fits := by
  have hpos := levels_pos e
  rw [eval.eq_def, if_neg (by omega)]
  cases e with
  | literal v => exact .done v
  | reference path =>
    dsimp only [evalReference]
    cases scope.lookup? path.root with
    | some v => exact fits_ofResult _
    | none => exact .ask path _ fun v => fits_ofResult _
  | unary op operand =>
    simp only [levels] at h
    exact (eval_fits scope operand (by omega)).bind fun v => fits_ofResult _
  | binary op left right =>
    simp only [levels] at h
    have hl : (eval setting (depth + 1) scope left).Fits := eval_fits scope left (by omega)
    have hr : (eval setting (depth + 1) scope right).Fits := eval_fits scope right (by omega)
    cases op with
    | and =>
      refine hl.bind fun v => ?_
      split
      · exact hr.bind fun w => .done _
      · exact .done _
    | or =>
      refine hl.bind fun v => ?_
      split
      · exact .done _
      · exact hr.bind fun w => .done _
    | _ => exact hl.bind fun v => hr.bind fun w => fits_ofResult _
  | call name args =>
    simp only [levels] at h
    exact (Congruence.call setting.clock name (arguments_fit scope args (by omega))).2
  | array items =>
    simp only [levels] at h
    exact (evalAll_fits scope items (by omega)).bind fun vs => .done _
  | index target position =>
    simp only [levels] at h
    exact (eval_fits scope target (by omega)).bind fun v =>
      (eval_fits scope position (by omega)).bind fun w => fits_ofResult _
  | lambda params body => exact .raise _

theorem evalAll_fits {depth : Nat} (scope : Scope) (es : List Expr)
    (h : depth + levelsAll es ≤ setting.limit) : (evalAll setting depth scope es).Fits := by
  cases es with
  | nil => exact .done []
  | cons e rest =>
    simp only [levelsAll] at h
    rw [evalAll]
    exact (eval_fits scope e (by omega)).bind fun v =>
      (evalAll_fits scope rest (by omega)).bind fun vs => .done _

theorem arguments_fit {depth : Nat} (scope : Scope) (es : List Expr)
    (h : depth + levelsAll es ≤ setting.limit) :
    fitting.Arguments (arguments setting depth scope es) (arguments setting depth scope es) := by
  cases es with
  | nil => exact .nil
  | cons e rest =>
    simp only [levelsAll] at h
    rw [arguments]
    refine .cons ⟨⟨rfl, eval_fits scope e (by omega)⟩, ?_⟩ (arguments_fit scope rest (by omega))
    cases e with
    | lambda params body =>
      refine .some ⟨rfl, fun values _ => ⟨rfl, ?_⟩⟩
      simp only [levels] at h
      exact eval_fits _ body (by omega)
    | _ => exact .none

end

/-! ## Texts -/

/-- **Main result.** The levels that parsers count are no more than were allowed.  The
evaluation has those, and one for each binary operator and index on the way down; where the
limit leaves room for all of them, it meets no limit, whatever its references come to.  So
with the limit of the parser no text is too deep that has no binary operator and no index. -/
theorem ofText_fits {limit : Nat} {text : String} {e : Expr} (h : ofText limit text = .ok e) :
    e.nesting ≤ limit ∧ e.levels ≤ limit + e.chained ∧
      ∀ setting : Setting, e.levels ≤ setting.limit → ∀ scope {σ : Type}
        (answer : Path → Nat → σ → Except Fault Value × σ) (s : σ) (limit' : Nat),
        ((eval setting 0 scope e).run answer s).1 ≠ .error (.tooDeep limit') := by
  obtain ⟨ts, hderives⟩ := derives_of_ofText h
  have hnesting := hderives.nesting_le
  refine ⟨hnesting, Nat.le_trans (levels_le e) (Nat.add_le_add_right hnesting _), ?_⟩
  intro setting hlevels scope σ answer s limit'
  exact (eval_fits setting scope e (by omega)).run_ne answer s limit'

/-- No binary operator and no index: a prefix, an array and a call. -/
theorem ofText_fits_call : ∃ e, ofText 3 "max(-x, [y, z])" = .ok e ∧ e.levels = 3 ∧
    ∀ scope {σ : Type} (answer : Path → Nat → σ → Except Fault Value × σ) (s : σ) (limit : Nat),
      ((eval ⟨3, ⟨0, 0⟩⟩ 0 scope e).run answer s).1 ≠ .error (.tooDeep limit) := by
  have hok : ofText 3 "max(-x, [y, z])" = .ok (.call "max"
      [.unary .neg (.reference (.field "x")),
        .array [.reference (.field "y"), .reference (.field "z")]]) := by cbv
  exact ⟨_, hok, by decide, (ofText_fits hok).2.2 ⟨3, ⟨0, 0⟩⟩ (by decide)⟩

/-- Each operator is one more level of the evaluation, and none of the text. -/
theorem eval_row_tooDeep : ∃ e, ofText 2 "false || false || false" = .ok e ∧ e.levels = 3 ∧
    ((eval ⟨2, ⟨0, 0⟩⟩ 0 [] e).run (fun path _ s => (.error path.dangling, s)) ()).1 =
      .error (.tooDeep 2) := by
  have hok : ofText 2 "false || false || false" = .ok (.binary .or
      (.binary .or (.literal (.boolean false)) (.literal (.boolean false)))
      (.literal (.boolean false))) := by cbv
  exact ⟨_, hok, by decide, by cbv⟩

end Expr
end Formulary
