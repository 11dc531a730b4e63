/-
  Functions of given values.

  Most functions evaluate their arguments, one after the other, and make their result of
  the values alone.  So it can be said of such a function what it makes of some values, for
  whatever expressions these are the values of.

  * `Evaluation.run_bind_of_ok`, `Evaluation.run_bind_eq_ok`, `Evaluation.result_bind`: two
    evaluations, one after the other;
  * `Functions.call_name`: a function is called by its name;
  * `Functions.Makes`: what a function makes of the values of its arguments;
  * `Functions.makes_one`, `Functions.makes_two`, `Functions.makes_three`: how to tell it of a
    function of so many arguments;
  * `Functions.Makes.unique`: it is one thing.
-/
import Formulary.Expr.Eval
import Formulary.Proofs.Questions
import Mathlib

namespace Formulary

/-! ## Evaluations one after the other -/

namespace Evaluation

variable {α β σ : Type} {answer : Path → Nat → σ → Result × σ} {s s' t : σ}

/-- Behind a value the run goes on with what follows it. -/
theorem run_bind_of_ok {x : Evaluation α} {a : α} (h : x.run answer s = (.ok a, s'))
    (f : α → Evaluation β) : (x >>= f).run answer s = (f a).run answer s' := by
  induction x generalizing s with
  | done b =>
    obtain ⟨hb, rfl⟩ := Prod.ext_iff.1 h
    obtain rfl := Except.ok.inj hb
    rfl
  | stop reason => cases h
  | ask path depth next ih =>
    change (ask path depth fun v => next v >>= f).run answer s = _
    rw [run] at h ⊢
    cases hanswer : answer path depth s with
    | mk reply s₁ =>
      rw [hanswer] at h
      cases reply with
      | ok v => exact ih v h
      | error fault => cases h

/-- Two evaluations come to a value if the first one comes to some value, and what follows
it comes to theirs. -/
theorem run_bind_eq_ok {x : Evaluation α} {f : α → Evaluation β} {b : β} :
    (x >>= f).run answer s = (.ok b, t) ↔
      ∃ a s', x.run answer s = (.ok a, s') ∧ (f a).run answer s' = (.ok b, t) := by
  constructor
  · intro h
    induction x generalizing s with
    | done a => exact ⟨a, s, rfl, h⟩
    | stop reason => cases h
    | ask path depth next ih =>
      change (ask path depth fun v => next v >>= f).run answer s = _ at h
      rw [run] at h ⊢
      cases hanswer : answer path depth s with
      | mk reply s₁ =>
        rw [hanswer] at h
        cases reply with
        | ok v => exact ih v h
        | error fault => cases h
  · rintro ⟨a, s', hx, hf⟩
    rw [run_bind_of_ok hx, hf]

/-- A result without questions leaves the state as it is. -/
theorem run_ofResult (r : Except Fault α) :
    (ofResult r).run answer s = (r.mapError .raised, s) := by
  cases r <;> rfl

@[simp] theorem result_pure {reply : Path → Result} (a : α) :
    (pure a : Evaluation α).result reply = .ok a := rfl

@[simp] theorem result_raise {reply : Path → Result} (fault : Fault) :
    (raise fault : Evaluation α).result reply = .error (.raised fault) := rfl

/-- The result of two evaluations under replies that no state changes. -/
theorem result_bind {reply : Path → Result} (x : Evaluation α) (f : α → Evaluation β) :
    (x >>= f).result reply = (x.result reply).bind fun a => (f a).result reply := by
  induction x with
  | done a => rfl
  | stop reason => rfl
  | ask path depth next ih =>
    change (ask path depth fun v => next v >>= f).result reply = _
    rw [result, result]
    cases reply path with
    | ok v => exact ih v
    | error fault => rfl

/-- Where replies depend on the path alone, a run has the result under these replies. -/
theorem fst_run_eq_result {reply : Path → Result}
    (hanswer : ∀ path depth s, (answer path depth s).1 = reply path) (x : Evaluation α) (s : σ) :
    (x.run answer s).1 = x.result reply := by
  refine (run_eq_result reply (fun _ => True) (.any x) ?_ trivial).1
  exact fun path depth s _ _ => ⟨hanswer path depth s, trivial⟩

end Evaluation

/-! ## Values of arguments -/

namespace Argument

variable {σ : Type} {answer : Path → Nat → σ → Result × σ} {s s' : σ}

theorem run_values_cons {args : List Argument} {v : Value} {vs : List Value} :
    (values args).run answer s = (.ok (v :: vs), s') ↔
      ∃ a rest s₁, args = a :: rest ∧ a.value.run answer s = (.ok v, s₁) ∧
        (values rest).run answer s₁ = (.ok vs, s') := by
  cases args with
  | nil => exact ⟨fun h => absurd (congrArg Prod.fst h) nofun, fun ⟨_, _, _, h, _⟩ => nomatch h⟩
  | cons a rest =>
    simp only [values, Evaluation.run_bind_eq_ok]
    constructor
    · rintro ⟨w, s₁, hw, ws, s₂, hws, hdone⟩
      obtain ⟨heq, rfl⟩ := Prod.ext_iff.1 hdone
      obtain ⟨rfl, rfl⟩ := List.cons.inj (Except.ok.inj heq)
      exact ⟨a, rest, s₁, rfl, hw, hws⟩
    · rintro ⟨_, _, s₁, hcons, hv, hvs⟩
      obtain ⟨rfl, rfl⟩ := List.cons.inj hcons
      exact ⟨v, s₁, hv, vs, s', hvs, rfl⟩

theorem run_values_nil {args : List Argument} :
    (values args).run answer s = (.ok [], s') ↔ args = [] ∧ s = s' := by
  cases args with
  | nil => exact ⟨fun h => ⟨rfl, congrArg Prod.snd h⟩, fun h => h.2 ▸ rfl⟩
  | cons a rest =>
    simp only [values, Evaluation.run_bind_eq_ok, reduceCtorEq, false_and, iff_false]
    rintro ⟨w, s₁, -, ws, s₂, -, hdone⟩
    exact absurd (congrArg Prod.fst hdone) nofun

/-- One value is that of one argument. -/
theorem run_values_one {args : List Argument} {v : Value} :
    (values args).run answer s = (.ok [v], s') ↔
      ∃ a, args = [a] ∧ a.value.run answer s = (.ok v, s') := by
  simp only [run_values_cons, run_values_nil]
  constructor
  · rintro ⟨a, _, _, rfl, hv, rfl, rfl⟩
    exact ⟨a, rfl, hv⟩
  · rintro ⟨a, rfl, hv⟩
    exact ⟨a, [], s', rfl, hv, rfl, rfl⟩

/-- Two values are those of two arguments, the second one in the state that the first one
leaves. -/
theorem run_values_two {args : List Argument} {v w : Value} :
    (values args).run answer s = (.ok [v, w], s') ↔
      ∃ a b s₁, args = [a, b] ∧ a.value.run answer s = (.ok v, s₁) ∧
        b.value.run answer s₁ = (.ok w, s') := by
  rw [run_values_cons]
  constructor
  · rintro ⟨a, rest, s₁, rfl, hv, hrest⟩
    obtain ⟨b, rfl, hw⟩ := run_values_one.1 hrest
    exact ⟨a, b, s₁, rfl, hv, hw⟩
  · rintro ⟨a, b, s₁, rfl, hv, hw⟩
    exact ⟨a, [b], s₁, rfl, hv, run_values_one.2 ⟨b, rfl, hw⟩⟩

/-- Three values are those of three arguments, each in the state that the one before leaves. -/
theorem run_values_three {args : List Argument} {u v w : Value} :
    (values args).run answer s = (.ok [u, v, w], s') ↔
      ∃ a b c s₁ s₂, args = [a, b, c] ∧ a.value.run answer s = (.ok u, s₁) ∧
        b.value.run answer s₁ = (.ok v, s₂) ∧ c.value.run answer s₂ = (.ok w, s') := by
  rw [run_values_cons]
  constructor
  · rintro ⟨a, rest, s₁, rfl, hu, hrest⟩
    obtain ⟨b, c, s₂, rfl, hv, hw⟩ := run_values_two.1 hrest
    exact ⟨a, b, c, s₁, s₂, rfl, hu, hv, hw⟩
  · rintro ⟨a, b, c, s₁, s₂, rfl, hu, hv, hw⟩
    exact ⟨a, [b, c], s₁, rfl, hu, run_values_two.2 ⟨b, c, s₂, rfl, hv, hw⟩⟩

/-- An array is a collection of its items. -/
theorem run_collection {a : Argument} {items : List Value}
    (h : a.value.run answer s = (.ok (.array items), s')) (function : String) :
    (a.collection function).run answer s = (.ok items, s') := by
  rw [collection, Evaluation.run_bind_of_ok h]
  rfl

/-- A number is what an argument has to be that is to be one. -/
theorem run_number {a : Argument} {x : Number}
    (h : a.value.run answer s = (.ok (.number x), s')) (function : String) :
    (a.number function).run answer s = (.ok x, s') := by
  rw [number, Evaluation.run_bind_of_ok h]
  rfl

/-- So is a text. -/
theorem run_text {a : Argument} {text : String}
    (h : a.value.run answer s = (.ok (.text text), s')) (function : String) :
    (a.text function).run answer s = (.ok text, s') := by
  rw [Argument.text, Evaluation.run_bind_of_ok h]
  rfl

end Argument

namespace Expr

/-- The values of expressions as arguments are the values of the expressions. -/
theorem values_arguments (setting : Setting) (depth : Nat) (scope : Scope) (es : List Expr) :
    Argument.values (arguments setting depth scope es) = evalAll setting depth scope es := by
  induction es with
  | nil => rfl
  | cons e rest ih => rw [arguments, evalAll, Argument.values, ih]

/-- An expression that comes to a value is within the limit of nesting. -/
theorem depth_lt_of_run_eval {σ : Type} {answer : Path → Nat → σ → Result × σ} {s s' : σ}
    {setting : Setting} {depth : Nat} {scope : Scope} {e : Expr} {v : Value}
    (h : (e.eval setting depth scope).run answer s = (.ok v, s')) : depth < setting.limit := by
  by_contra hdepth
  rw [eval.eq_def, if_pos (Nat.le_of_not_lt hdepth)] at h
  exact absurd (congrArg Prod.fst h) nofun

/-- An expression that comes to a value is no lambda. -/
theorem lambda?_of_run_eval {σ : Type} {answer : Path → Nat → σ → Result × σ} {s s' : σ}
    {setting : Setting} {depth : Nat} {scope : Scope} {e : Expr} {v : Value}
    (h : (e.eval setting depth scope).run answer s = (.ok v, s')) :
    e.lambda? setting depth scope = none := by
  have hdepth := Nat.not_le.2 (depth_lt_of_run_eval h)
  cases e with
  | lambda params body =>
    rw [eval.eq_def, if_neg hdepth] at h
    exact absurd (congrArg Prod.fst h) nofun
  | _ => rfl

/-- There are expressions of any values. -/
theorem run_evalAll_literal {σ : Type} (answer : Path → Nat → σ → Result × σ) (setting : Setting)
    {depth : Nat} (h : depth < setting.limit) (scope : Scope) (vs : List Value) (s : σ) :
    (evalAll setting depth scope (vs.map .literal)).run answer s = (.ok vs, s) := by
  induction vs with
  | nil => rfl
  | cons v rest ih =>
    have hv : (literal v).eval setting depth scope = pure v := by
      rw [eval.eq_def, if_neg (Nat.not_le.2 h)]
    rw [List.map_cons, evalAll, hv]
    exact Evaluation.run_bind_of_ok ih _

/-- Within the limit of nesting a call comes to what the function makes of its arguments. -/
theorem eval_call {setting : Setting} {depth : Nat} (h : depth < setting.limit) (scope : Scope)
    (name : String) (args : List Expr) :
    (call name args).eval setting depth scope =
      Functions.call setting.clock name (arguments setting (depth + 1) scope args) := by
  rw [eval.eq_def, if_neg (Nat.not_le.2 h)]

end Expr

namespace Functions

/-! ## Functions by name -/

/-- The names of functions, which no time changes. -/
theorem map_name_catalog (clock clock' : Instant) :
    (catalog clock).map Builtin.name = (catalog clock').map Builtin.name := rfl

/-- No two functions have names that differ only in the case of letters. -/
theorem nodup_lower_names (clock : Instant) :
    ((catalog clock).map fun f => Text.lower f.name).Nodup := by
  have hnames : (((catalog ⟨0, 0⟩).map Builtin.name).map Text.lower).Nodup := by decide +kernel
  rwa [map_name_catalog ⟨0, 0⟩ clock, List.map_map] at hnames

theorem find?_name {clock : Instant} {f : Builtin} (hf : f ∈ catalog clock) :
    find? clock f.name = some f := by
  obtain ⟨before, after, hsplit⟩ := List.append_of_mem hf
  have hnodup := nodup_lower_names clock
  rw [hsplit, List.map_append, List.map_cons] at hnodup
  refine List.find?_eq_some_iff_append.2 ⟨beq_self_eq_true _, before, after, hsplit, ?_⟩
  intro g hg
  have hne : Text.lower g.name ≠ Text.lower f.name := fun heq =>
    (List.nodup_append.1 hnodup).2.2 _ (List.mem_map_of_mem hg) _ List.mem_cons_self heq
  simpa using hne

/-- A function is called by its name. -/
theorem call_name {clock : Instant} {f : Builtin} (hf : f ∈ catalog clock)
    (args : List Argument) : call clock f.name args = f.apply args := by
  rw [call, find?_name hf]

theorem mem_catalog_of_mem_texts {f : Builtin} (hf : f ∈ texts) (clock : Instant) :
    f ∈ catalog clock :=
  List.mem_append_left _ (List.mem_append_left _ (List.mem_append_left _
    (List.mem_append_right _ hf)))

theorem mem_catalog_of_mem_dates {f : Builtin} {clock : Instant} (hf : f ∈ dates clock) :
    f ∈ catalog clock :=
  List.mem_append_left _ (List.mem_append_right _ hf)

theorem mem_catalog_of_mem_collections {f : Builtin} (hf : f ∈ collections) (clock : Instant) :
    f ∈ catalog clock :=
  List.mem_append_right _ hf

/-! ## What functions make of values -/

/-- What a function makes of the values of its arguments: where expressions come to these
values, one after the other, a call of the function with them has this result, and asks for
nothing else. -/
def Makes (name : String) (values : List Value) (r : Result) : Prop :=
  ∀ (setting : Setting) (depth : Nat) (scope : Scope) (args : List Expr) (σ : Type)
    (answer : Path → Nat → σ → Result × σ) (s s' : σ),
    (Expr.evalAll setting (depth + 1) scope args).run answer s = (.ok values, s') →
      ((Expr.call name args).eval setting depth scope).run answer s = (r.mapError .raised, s')

/-- A function makes a result of some values if it has this result of arguments with these
values. -/
theorem makes_of_apply {f : Builtin} (hf : ∀ clock, f ∈ catalog clock) {v : Value}
    {vs : List Value} {r : Result}
    (h : ∀ (args : List Argument) (σ : Type) (answer : Path → Nat → σ → Result × σ) (s s' : σ),
      (Argument.values args).run answer s = (.ok (v :: vs), s') →
        (f.apply args).run answer s = (r.mapError .raised, s')) :
    Makes f.name (v :: vs) r := by
  intro setting depth scope args σ answer s s' hargs
  rw [← Expr.values_arguments] at hargs
  have hdepth : depth < setting.limit := by
    obtain ⟨a, rest, s₁, hsplit, ha, -⟩ := Argument.run_values_cons.1 hargs
    cases args with
    | nil => exact absurd hsplit nofun
    | cons e es =>
      obtain ⟨rfl, -⟩ := List.cons.inj hsplit
      exact Nat.lt_of_succ_lt (Expr.depth_lt_of_run_eval ha)
  rw [Expr.eval_call hdepth, call_name (hf setting.clock)]
  exact h _ σ answer s s' hargs

/-- To tell what a function makes of one value. -/
theorem makes_one {f : Builtin} (hf : ∀ clock, f ∈ catalog clock) {v : Value} {r : Result}
    (h : ∀ (a : Argument) (σ : Type) (answer : Path → Nat → σ → Result × σ) (s s' : σ),
      a.value.run answer s = (.ok v, s') →
        (f.apply [a]).run answer s = (r.mapError .raised, s')) :
    Makes f.name [v] r := by
  refine makes_of_apply hf fun args σ answer s s' hargs => ?_
  obtain ⟨a, rfl, ha⟩ := Argument.run_values_one.1 hargs
  exact h a σ answer s s' ha

/-- To tell what a function makes of two values. -/
theorem makes_two {f : Builtin} (hf : ∀ clock, f ∈ catalog clock) {v w : Value} {r : Result}
    (h : ∀ (a b : Argument) (σ : Type) (answer : Path → Nat → σ → Result × σ) (s s₁ s' : σ),
      a.value.run answer s = (.ok v, s₁) → b.value.run answer s₁ = (.ok w, s') →
        (f.apply [a, b]).run answer s = (r.mapError .raised, s')) :
    Makes f.name [v, w] r := by
  refine makes_of_apply hf fun args σ answer s s' hargs => ?_
  obtain ⟨a, b, s₁, rfl, ha, hb⟩ := Argument.run_values_two.1 hargs
  exact h a b σ answer s s₁ s' ha hb

/-- To tell what a function makes of three values. -/
theorem makes_three {f : Builtin} (hf : ∀ clock, f ∈ catalog clock) {u v w : Value} {r : Result}
    (h : ∀ (a b c : Argument) (σ : Type) (answer : Path → Nat → σ → Result × σ) (s s₁ s₂ s' : σ),
      a.value.run answer s = (.ok u, s₁) → b.value.run answer s₁ = (.ok v, s₂) →
      c.value.run answer s₂ = (.ok w, s') →
        (f.apply [a, b, c]).run answer s = (r.mapError .raised, s')) :
    Makes f.name [u, v, w] r := by
  refine makes_of_apply hf fun args σ answer s s' hargs => ?_
  obtain ⟨a, b, c, s₁, s₂, rfl, ha, hb, hc⟩ := Argument.run_values_three.1 hargs
  exact h a b c σ answer s s₁ s₂ s' ha hb hc

/-- A function makes one thing of given values. -/
theorem Makes.unique {name : String} {vs : List Value} {r r' : Result} (h : Makes name vs r)
    (h' : Makes name vs r') : r = r' := by
  let answer (_ : Path) (_ : Nat) (s : Unit) : Result × Unit := (.ok .null, s)
  have hargs := Expr.run_evalAll_literal answer ⟨2, ⟨0, 0⟩⟩ Nat.one_lt_two [] vs ()
  have hrun := (h _ 0 [] _ _ answer () _ hargs).symm.trans (h' _ 0 [] _ _ answer () _ hargs)
  have heq : r.mapError Stop.raised = r'.mapError Stop.raised := congrArg Prod.fst hrun
  cases r <;> cases r' <;> simp_all [Except.mapError]

/-- It makes of some values what it makes of them. -/
theorem Makes.iff {name : String} {vs : List Value} {r r' : Result} (h : Makes name vs r) :
    Makes name vs r' ↔ r' = r :=
  ⟨fun h' => h'.unique h, fun heq => heq ▸ h⟩

end Functions
end Formulary
