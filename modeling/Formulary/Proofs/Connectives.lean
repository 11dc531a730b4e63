/-
  Conditions joined by operators and by functions.

  A row of `&&` is a tree that leans to the left: its first operand stands deepest, and every
  operator tests what the operators inside it have come to.  The function `and` goes along a list
  of arguments.  Both stop at the first condition that is not true, and so it is with `||` and
  `or` at the first that is.  The tree is the deeper one, so it is the one that can go below a
  limit of nesting.

  * `Functions.connective`, `Functions.joining`: the operator and the function that a condition
    of one truth decides;
  * `Functions.decided`: what a list of conditions comes to;
  * `Expr.eval_connective`, `Functions.call_joining`: the two evaluations in its terms;
  * `Expr.shortened_row`: by induction on the row, from its last operand;
  * `Expr.calls_eq_rows`: the function and the row come to the same and look up the same.
-/
import Formulary.Proofs.Pathwise

namespace Formulary

/-! ## Conditions -/

/-- What an evaluation comes to as a condition. -/
def Evaluation.truth (x : Evaluation Value) : Evaluation Bool := do return (← x).isTruthy

namespace Functions

/-- The operator that one operand decides, if it is of the given truth. -/
def connective (decisive : Bool) : BinaryOp := if decisive then .or else .and

/-- The function that one argument decides. -/
def joining (decisive : Bool) : Builtin := if decisive then orFunction else andFunction

/-- A condition that decides the matter, or else another one. -/
def orElse (decisive : Bool) (x y : Evaluation Bool) : Evaluation Bool := do
  if (← x) == decisive then return decisive else y

/-- Conditions one after the other, up to the first that decides the matter. -/
def decided (decisive : Bool) : List Argument → Evaluation Bool
  | [] => return !decisive
  | a :: rest => orElse decisive a.value.truth (decided decisive rest)

variable {decisive : Bool} {args : List Argument}

theorem allTrue_eq_decided (args : List Argument) : allTrue args = decided false args := by
  induction args with
  | nil => rfl
  | cons a rest ih =>
    rw [allTrue, decided, orElse, Evaluation.truth, bind_assoc, ih]
    refine bind_congr fun v => ?_
    cases v.isTruthy <;> rfl

theorem anyTrue_eq_decided (args : List Argument) : anyTrue args = decided true args := by
  induction args with
  | nil => rfl
  | cons a rest ih =>
    rw [anyTrue, decided, orElse, Evaluation.truth, bind_assoc, ih]
    refine bind_congr fun v => ?_
    cases v.isTruthy <;> rfl

/-- One condition decides the matter either way. -/
theorem decided_singleton (a : Argument) : decided decisive [a] = a.value.truth := by
  rw [decided, orElse]
  conv_rhs => rw [← bind_pure a.value.truth]
  refine bind_congr fun t => ?_
  cases t <;> cases decisive <;> rfl

theorem orElse_assoc (x y z : Evaluation Bool) :
    orElse decisive (orElse decisive x y) z = orElse decisive x (orElse decisive y z) := by
  simp only [orElse, bind_assoc]
  refine bind_congr fun t => ?_
  split <;> simp

/-- The last condition counts if none before it has decided the matter. -/
theorem decided_concat (hargs : args ≠ []) (a : Argument) :
    decided decisive (args ++ [a]) = orElse decisive (decided decisive args) a.value.truth := by
  induction args with
  | nil => exact absurd rfl hargs
  | cons b rest ih =>
    rw [List.cons_append, decided]
    cases rest with
    | nil => rw [List.nil_append, decided_singleton, decided_singleton]
    | cons c rest => rw [ih (List.cons_ne_nil _ _), ← orElse_assoc]; rfl

theorem call_joining (clock : Instant) (hargs : args ≠ []) :
    call clock (joining decisive).name args = Value.boolean <$> decided decisive args := by
  have hmem : ∀ f ∈ logic, f ∈ catalog clock := fun f hf =>
    List.mem_append_left _ (List.mem_append_left _ (List.mem_append_left _
      (List.mem_append_left _ hf)))
  obtain ⟨a, rest, rfl⟩ := List.exists_cons_of_ne_nil hargs
  cases decisive with
  | false =>
    rw [call_name (hmem _ (by simp [joining, logic])), ← allTrue_eq_decided, map_eq_pure_bind]
    rfl
  | true =>
    rw [call_name (hmem _ (by simp [joining, logic])), ← anyTrue_eq_decided, map_eq_pure_bind]
    rfl

end Functions

/-! ## Rows of operators -/

namespace Expr

open Evaluation Functions

variable {setting : Setting} {depth : Nat} {scope : Scope} {decisive : Bool}

theorem arguments_concat (es : List Expr) (e : Expr) :
    arguments setting depth scope (es ++ [e]) = arguments setting depth scope es ++
      [⟨eval setting depth scope e, lambda? setting depth scope e⟩] := by
  induction es with
  | nil => rfl
  | cons e' rest ih => rw [List.cons_append, arguments, ih, arguments]; rfl

/-- Within the limit of nesting an operator joins the conditions of its operands. -/
theorem eval_connective (h : depth < setting.limit) (left right : Expr) :
    eval setting depth scope (.binary (connective decisive) left right) =
      Value.boolean <$> orElse decisive (eval setting (depth + 1) scope left).truth
        (eval setting (depth + 1) scope right).truth := by
  rw [eval.eq_def, if_neg (Nat.not_le.2 h)]
  simp only [orElse, truth, map_eq_pure_bind, bind_assoc, pure_bind]
  cases decisive with
  | false =>
    refine bind_congr fun v => ?_
    cases v.isTruthy <;> simp
  | true =>
    refine bind_congr fun v => ?_
    cases v.isTruthy <;> simp

theorem truth_boolean (x : Evaluation Bool) : (Value.boolean <$> x).truth = x := by
  simp only [truth, map_eq_pure_bind, bind_assoc, pure_bind, Value.isTruthy, bind_pure]

/-- Behind an operator nothing is lost by taking a row as a condition. -/
theorem eval_row_eq_truth {es : List Expr} (hes : es ≠ []) (e : Expr) :
    eval setting depth scope (es.foldl (.binary (connective decisive)) e) =
      Value.boolean <$>
        (eval setting depth scope (es.foldl (.binary (connective decisive)) e)).truth := by
  obtain ⟨es, last, rfl⟩ := List.eq_nil_or_concat' es |>.resolve_left hes
  rw [List.foldl_concat]
  by_cases hdepth : depth < setting.limit
  · rw [eval_connective hdepth, truth_boolean]
  · rw [eval.eq_def, if_pos (Nat.le_of_not_lt hdepth)]
    rfl

/-- With no less room a condition goes on as it does, up to the limit of nesting. -/
theorem shortened_truth {depth' : Nat} (h : depth' ≤ depth) (e : Expr) :
    Shortened setting.limit (eval setting depth scope e).truth
      (eval setting depth' scope e).truth := by
  have hbelow : setting.limit + depth' ≤ setting.limit + depth := Nat.add_le_add_left h _
  exact (eval_shortened hbelow setting.clock scope e).bind fun v => .done _

/-- The last operator of a row is the outermost one: the others are one level further down. -/
theorem shortened_step {depth' : Nat} (h : depth' ≤ depth + 1) {e : Expr} {es : List Expr}
    (hes : Shortened setting.limit
      (eval setting (depth + 1) scope (es.foldl (.binary (connective decisive)) e)).truth
      (decided decisive (arguments setting depth' scope (e :: es)))) (last : Expr) :
    Shortened setting.limit
      (eval setting depth scope ((es ++ [last]).foldl (.binary (connective decisive)) e)).truth
      (decided decisive (arguments setting depth' scope (e :: (es ++ [last])))) := by
  rw [List.foldl_concat, ← List.cons_append, arguments_concat, decided_concat (by simp [arguments])]
  by_cases hdepth : depth < setting.limit
  · rw [eval_connective hdepth, truth_boolean]
    refine hes.bind fun t => ?_
    split
    · exact .done _
    · exact shortened_truth h last
  · rw [eval.eq_def, if_pos (Nat.le_of_not_lt hdepth)]
    exact .cut _

/-- A row of operators goes on as the conditions along its operands do, up to the limit of
nesting. -/
theorem shortened_row {depth' : Nat} (h : depth' ≤ depth) (e : Expr) (es : List Expr) :
    Shortened setting.limit
      (eval setting depth scope (es.foldl (.binary (connective decisive)) e)).truth
      (decided decisive (arguments setting depth' scope (e :: es))) := by
  induction es using List.reverseRecOn generalizing depth with
  | nil =>
    rw [arguments, arguments, decided_singleton]
    exact shortened_truth h e
  | append_singleton es last ih =>
    have hlater : depth' ≤ depth + 1 := Nat.le_succ_of_le h
    exact shortened_step hlater (ih hlater) last

/-- A row with an operator goes on as the call of its function does, up to the limit. -/
theorem shortened_row_call {es : List Expr} (hes : es ≠ []) (e : Expr) :
    Shortened setting.limit
      (eval setting depth scope (es.foldl (.binary (connective decisive)) e))
      (eval setting depth scope (.call (joining decisive).name (e :: es))) := by
  by_cases hdepth : depth < setting.limit
  · rw [eval_row_eq_truth hes, eval_call hdepth, call_joining _ (by simp [arguments]),
      map_eq_pure_bind, map_eq_pure_bind]
    obtain ⟨es, last, rfl⟩ := List.eq_nil_or_concat' es |>.resolve_left hes
    refine (shortened_step (Nat.le_refl _) ?_ last).bind fun t => .done _
    exact shortened_row (Nat.le_refl _) e es
  · rw [eval.eq_def, if_pos (Nat.le_of_not_lt hdepth)]
    exact .cut _

/-- **Main result.** The functions `and` and `or` and the operators `&&` and `||` agree.  For two
conditions or more, in any scope and for any source of answers that replies by path, the call of
the function comes to what the row of the operator comes to, be it a value or a fault, and looks
up the same paths in the same order, unless the row goes below the limit of nesting. -/
theorem calls_eq_rows (setting : Setting) (depth : Nat) (scope : Scope) (a b : Expr)
    (rest : List Expr) {σ : Type} {answer : Path → Nat → σ → Result × σ} {reply : Path → Result}
    (hanswer : ∀ path depth s, (answer path depth s).1 = reply path) (s : σ) :
    ∀ pair ∈ [("and", BinaryOp.and), ("or", BinaryOp.or)],
      let x := (Expr.call pair.1 (a :: b :: rest)).eval setting depth scope
      let y := ((b :: rest).foldl (.binary pair.2) a).eval setting depth scope
      (∀ limit, (y.run answer s).1 ≠ .error (.tooDeep limit)) →
        (x.run answer s).1 = (y.run answer s).1 ∧
          (x.lookups answer s).map Prod.fst = (y.lookups answer s).map Prod.fst := by
  have hjoined (decisive : Bool) :
      let x := (Expr.call (joining decisive).name (a :: b :: rest)).eval setting depth scope
      let y := ((b :: rest).foldl (.binary (connective decisive)) a).eval setting depth scope
      (∀ limit, (y.run answer s).1 ≠ .error (.tooDeep limit)) →
        (x.run answer s).1 = (y.run answer s).1 ∧
          (x.lookups answer s).map Prod.fst = (y.lookups answer s).map Prod.fst := by
    intro x y hwithin
    have hshortened : Shortened setting.limit y x := shortened_row_call (List.cons_ne_nil _ _) a
    rw [fst_run_eq_result hanswer] at hwithin
    obtain ⟨hresult, hpaths⟩ := (hshortened.agree (hwithin _)).run hanswer s
    exact ⟨hresult.symm, hpaths.symm⟩
  simp only [List.forall_mem_cons, List.not_mem_nil, false_implies, implies_true, and_true]
  exact ⟨hjoined false, hjoined true⟩

/-- One condition is true, one is not, and every other one fails. -/
def conditions (path : Path) : Result :=
  if path.root = "x" then .ok (.boolean true) else if path.root = "y" then .ok .null
  else .error (.reference path.root)

/-- Three levels are enough for three conditions.  What fails behind the condition that is not
true is not looked up for `and`, and it is what `or` comes to. -/
theorem calls_eq_rows_conditions :
    let setting : Setting := ⟨3, ⟨0, 0⟩⟩
    let answer : Path → Nat → Unit → Result × Unit := steady conditions
    let field (name : String) : Expr := .reference (.field name)
    let conjunction := Expr.binary .and (.binary .and (field "x") (field "y")) (field "z")
    let disjunction := Expr.binary .or (.binary .or (field "y") (field "z")) (field "x")
    let both := Expr.call "and" [field "x", field "y", field "z"]
    let either := Expr.call "or" [field "y", field "z", field "x"]
    (∀ path depth s, (answer path depth s).1 = conditions path) ∧
      ((conjunction.eval setting 0 []).run answer ()).1 = .ok (.boolean false) ∧
      ((both.eval setting 0 []).run answer ()).1 = .ok (.boolean false) ∧
      ((both.eval setting 0 []).lookups answer ()).map Prod.fst = [.field "x", .field "y"] ∧
      ((disjunction.eval setting 0 []).run answer ()).1 = .error (.raised (.reference "z")) ∧
      ((either.eval setting 0 []).run answer ()).1 = .error (.raised (.reference "z")) ∧
      ((either.eval setting 0 []).lookups answer ()).map Prod.fst = [.field "y", .field "z"] := by
  intro setting answer field conjunction disjunction both either
  have hanswer : ∀ path depth s, (answer path depth s).1 = conditions path := fun _ _ _ => rfl
  have hfalse : ((conjunction.eval setting 0 []).run answer ()).1 = .ok (.boolean false) := by rfl
  have hfault : ((disjunction.eval setting 0 []).run answer ()).1 =
      .error (.raised (.reference "z")) := by rfl
  obtain ⟨hand, handPaths⟩ := calls_eq_rows setting 0 [] (field "x") (field "y") [field "z"]
    hanswer () ("and", .and) (by simp) fun limit => hfalse ▸ nofun
  obtain ⟨hor, horPaths⟩ := calls_eq_rows setting 0 [] (field "y") (field "z") [field "x"]
    hanswer () ("or", .or) (by simp) fun limit => hfault ▸ nofun
  exact ⟨hanswer, hfalse, hand.trans hfalse, handPaths.trans (by decide), hfault,
    hor.trans hfault, horPaths.trans (by decide)⟩

end Expr

end Formulary
