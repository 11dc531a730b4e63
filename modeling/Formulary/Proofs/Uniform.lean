/-
  Functions treat their arguments alike.

  A function evaluates its arguments and calls lambdas, and makes its result of
  what comes back; it does not look into the evaluations.  So from related
  arguments every function makes related evaluations, whatever the relation is.

  * `Congruence`: a relation of evaluations that sequences keep;
  * `Congruence.Arguments`: arguments with related values and related lambdas;
  * `Congruence.Keeps`: a function makes related evaluations of related arguments;
  * `Congruence.call`: every function does.
-/
import Formulary.Expr.Eval
import Mathlib.Data.List.Forall2

namespace Formulary

/-- A relation of evaluations that holds of results and faults and that sequences
keep. -/
structure Congruence where
  rel : {α : Type} → Evaluation α → Evaluation α → Prop
  done : ∀ {α : Type} (a : α), rel (.done a) (.done a)
  raise : ∀ {α : Type} (fault : Fault), rel (α := α) (.raise fault) (.raise fault)
  bind : ∀ {α β : Type} {x y : Evaluation α} {f g : α → Evaluation β},
    rel x y → (∀ a, rel (f a) (g a)) → rel (x.bind f) (y.bind g)

namespace Congruence

variable (R : Congruence)

/-- Two lambdas of as many parameters whose calls with enough values are related. -/
structure Lambdas (f g : Lambda) : Prop where
  params : f.params.length = g.params.length
  call : ∀ values : List Value, f.params.length ≤ values.length →
    R.rel (f.call values) (g.call values)

/-- Two arguments with related values, which are related lambdas or none. -/
structure Argument (a b : Formulary.Argument) : Prop where
  value : R.rel a.value b.value
  lambda : Option.Rel R.Lambdas a.lambda? b.lambda?

/-- Related arguments in order. -/
abbrev Arguments : List Formulary.Argument → List Formulary.Argument → Prop :=
  List.Forall₂ R.Argument

/-- A function makes related evaluations of related arguments. -/
def Keeps (f : Builtin) : Prop :=
  ∀ args args', R.Arguments args args' → R.rel (f.apply args) (f.apply args')

variable {R} {args args' : List Formulary.Argument} {a a' b b' c c' : Formulary.Argument}

theorem ofResult {α : Type} (r : Except Fault α) :
    R.rel (Evaluation.ofResult r) (Evaluation.ofResult r) := by
  cases r with
  | ok a => exact R.done a
  | error fault => exact R.raise fault

/-! ## Numbers of arguments -/

theorem Keeps.one {name : String} {apply : Formulary.Argument → Evaluation Value}
    (h : ∀ a a', R.Argument a a' → R.rel (apply a) (apply a')) :
    R.Keeps (.one name apply) := by
  intro args args' hargs
  cases hargs with
  | nil => exact R.raise _
  | cons ha hrest =>
    cases hrest with
    | nil => exact h _ _ ha
    | cons _ hrest => simp only [Builtin.one, List.length_cons, hrest.length_eq]; exact R.raise _

theorem Keeps.two {name : String}
    {apply : Formulary.Argument → Formulary.Argument → Evaluation Value}
    (h : ∀ a a' b b', R.Argument a a' → R.Argument b b' → R.rel (apply a b) (apply a' b')) :
    R.Keeps (.two name apply) := by
  intro args args' hargs
  cases hargs with
  | nil => exact R.raise _
  | cons ha hrest =>
    cases hrest with
    | nil => exact R.raise _
    | cons hb hrest =>
      cases hrest with
      | nil => exact h _ _ _ _ ha hb
      | cons _ hrest => simp only [Builtin.two, List.length_cons, hrest.length_eq]; exact R.raise _

theorem Keeps.three {name : String}
    {apply : Formulary.Argument → Formulary.Argument → Formulary.Argument → Evaluation Value}
    (h : ∀ a a' b b' c c', R.Argument a a' → R.Argument b b' → R.Argument c c' →
      R.rel (apply a b c) (apply a' b' c')) :
    R.Keeps (.three name apply) := by
  intro args args' hargs
  cases hargs with
  | nil => exact R.raise _
  | cons ha hrest =>
    cases hrest with
    | nil => exact R.raise _
    | cons hb hrest =>
      cases hrest with
      | nil => exact R.raise _
      | cons hc hrest =>
        cases hrest with
        | nil => exact h _ _ _ _ _ _ ha hb hc
        | cons _ hrest =>
          simp only [Builtin.three, List.length_cons, hrest.length_eq]; exact R.raise _

theorem Keeps.none {name : String} {value : Evaluation Value} (h : R.rel value value) :
    R.Keeps (.none name value) := by
  intro args args' hargs
  cases hargs with
  | nil => exact h
  | cons _ hrest => simp only [Builtin.none, List.length_cons, hrest.length_eq]; exact R.raise _

theorem Keeps.oneOrTwo {name : String}
    {apply : Formulary.Argument → Option Formulary.Argument → Evaluation Value}
    (h : ∀ a a' b? b?', R.Argument a a' → Option.Rel R.Argument b? b?' →
      R.rel (apply a b?) (apply a' b?')) :
    R.Keeps (.oneOrTwo name apply) := by
  intro args args' hargs
  cases hargs with
  | nil => exact R.raise _
  | cons ha hrest =>
    cases hrest with
    | nil => exact h _ _ _ _ ha .none
    | cons hb hrest =>
      cases hrest with
      | nil => exact h _ _ _ _ ha (.some hb)
      | cons _ hrest =>
        simp only [Builtin.oneOrTwo, List.length_cons, hrest.length_eq]; exact R.raise _

theorem Keeps.many {name : String} {apply : List Formulary.Argument → Evaluation Value}
    (h : ∀ args args', R.Arguments args args' → R.rel (apply args) (apply args')) :
    R.Keeps (.many name apply) := by
  intro args args' hargs
  cases hargs with
  | nil => exact R.raise _
  | cons ha hrest => exact h _ _ (.cons ha hrest)

/-! ## Kinds of arguments -/

namespace Argument

theorem number (h : R.Argument a a') (function : String) :
    R.rel (a.number function) (a'.number function) := by
  refine R.bind h.value fun v => ?_
  cases v with
  | number x => exact R.done x
  | _ => exact R.raise _

theorem text (h : R.Argument a a') (function : String) :
    R.rel (a.text function) (a'.text function) := by
  refine R.bind h.value fun v => ?_
  cases v with
  | text s => exact R.done s
  | _ => exact R.raise _

theorem collection (h : R.Argument a a') (function : String) :
    R.rel (a.collection function) (a'.collection function) := by
  refine R.bind h.value fun v => ?_
  cases v with
  | array items => exact R.done items
  | null => exact R.done []
  | _ => exact R.raise _

/-- A lambda that takes no more parameters than are available is used as it is. -/
theorem withLambda {α : Type} {f g : Lambda → Evaluation α} (h : R.Argument a a')
    (function : String) (available : Nat)
    (hfg : ∀ l l', R.Lambdas l l' → l.params.length ≤ available → R.rel (f l) (g l')) :
    R.rel ((a.asLambda function available).bind f) ((a'.asLambda function available).bind g) := by
  have hlambda := h.lambda
  unfold Formulary.Argument.asLambda
  generalize a.lambda? = l?, a'.lambda? = l?' at hlambda
  cases hlambda with
  | none => exact R.raise _
  | some hl =>
    simp only [← hl.params]
    split
    · exact R.raise _
    next hle => exact hfg _ _ hl (Nat.le_of_not_lt hle)

theorem values (h : R.Arguments args args') :
    R.rel (Formulary.Argument.values args) (Formulary.Argument.values args') := by
  induction h with
  | nil => exact R.done []
  | cons ha _ ih => exact R.bind ha.value fun v => R.bind ih fun vs => R.done (v :: vs)

end Argument

/-! ## Functions of conditions -/

open Functions

theorem allTrue (h : R.Arguments args args') : R.rel (allTrue args) (allTrue args') := by
  induction h with
  | nil => exact R.done true
  | cons ha _ ih =>
    refine R.bind ha.value fun v => ?_
    split
    · exact ih
    · exact R.done false

theorem anyTrue (h : R.Arguments args args') : R.rel (anyTrue args) (anyTrue args') := by
  induction h with
  | nil => exact R.done false
  | cons ha _ ih =>
    refine R.bind ha.value fun v => ?_
    split
    · exact R.done true
    · exact ih

theorem logic : ∀ f ∈ logic, R.Keeps f := by
  simp only [Functions.logic, List.forall_mem_cons, List.not_mem_nil, false_implies, implies_true,
    and_true]
  refine ⟨.many fun args args' h => ?_, .many fun args args' h => ?_, .one fun a a' h => ?_,
    .three fun a a' b b' c c' ha hb hc => ?_, .one fun a a' h => ?_⟩
  · exact R.bind (allTrue h) fun b => R.done _
  · exact R.bind (anyTrue h) fun b => R.done _
  · exact R.bind h.value fun v => R.done _
  · refine R.bind ha.value fun v => ?_
    split
    · exact hb.value
    · exact hc.value
  · exact R.bind h.value fun v => R.done _

/-! ## Functions of texts, numbers and dates -/

theorem texts : ∀ f ∈ texts, R.Keeps f := by
  have textFunction (name : String) (f : String → String) : R.Keeps (textFunction name f) :=
    .one fun a a' h => R.bind (h.text name) fun s => R.done _
  simp only [Functions.texts, List.forall_mem_cons, List.not_mem_nil, false_implies,
    implies_true, and_true]
  refine ⟨.many fun args args' h => ?_, .two fun a a' b b' ha hb => ?_, .one fun a a' h => ?_,
    textFunction _ _, textFunction _ _, textFunction _ _, .two fun a a' b b' ha hb => ?_,
    .one fun a a' h => ?_, .one fun a a' h => ?_, .two fun a a' b b' ha hb => ?_⟩
  · exact R.bind (Argument.values h) fun vs => ofResult _
  · refine R.bind ha.value fun v => R.bind ?_ fun whole => R.bind (hb.text _) fun part => R.done _
    cases v with
    | text s => exact R.done s
    | null => exact R.done ""
    | _ => exact R.raise _
  · refine R.bind h.value fun v => ?_
    cases v with
    | text s => exact R.done _
    | array items => exact R.done _
    | null => exact R.done _
    | _ => exact R.raise _
  · refine R.bind ha.value fun v => ?_
    cases v with
    | array items => exact R.bind (hb.text _) fun s => R.done _
    | _ => exact R.raise _
  · exact R.bind h.value fun v => ofResult _
  · exact R.bind h.value fun v => R.done _
  · exact R.bind ha.value fun v => R.bind hb.value fun w => R.done _

theorem numeric : ∀ f ∈ numeric, R.Keeps f := by
  have numbers (name : String) (f : List Number → Except Fault Number) :
      R.Keeps (numbersFunction name f) :=
    .many fun args args' h => R.bind (Argument.values h) fun vs => ofResult _
  have number (name : String) (f : Number → Number) : R.Keeps (numberFunction name f) :=
    .one fun a a' h => R.bind (h.number name) fun x => R.done _
  simp only [Functions.numeric, List.forall_mem_cons, List.not_mem_nil, false_implies,
    implies_true, and_true]
  refine ⟨numbers _ _, numbers _ _, numbers _ _, numbers _ _, numbers _ _,
    .many fun args args' h => ?_, .two fun a a' b b' ha hb => ?_, .one fun a a' h => ?_,
    .two fun a a' b b' ha hb => ?_, number _ _, number _ _,
    .oneOrTwo fun a a' b? b?' ha hb => ?_⟩
  · exact R.bind (Argument.values h) fun vs => R.done _
  · exact R.bind (ha.number _) fun x => R.bind (hb.number _) fun y => ofResult _
  · exact R.bind (h.number _) fun x => ofResult _
  · exact R.bind (ha.number _) fun x => R.bind (hb.number _) fun y => ofResult _
  · refine R.bind (ha.number _) fun x => ?_
    cases hb with
    | none => exact R.done _
    | some hb => exact R.bind (hb.number _) fun places => R.done _

theorem dateArgument (h : R.Argument a a') (function : String) :
    R.rel (dateArgument function a) (dateArgument function a') := by
  refine R.bind h.value fun v => ?_
  split
  · exact R.done _
  · exact R.raise _

theorem dates (clock : Instant) : ∀ f ∈ dates clock, R.Keeps f := by
  have part (name : String) (f : Day → Int) : R.Keeps (partFunction name f) :=
    .one fun a a' h => R.bind (dateArgument h name) fun t => R.done _
  have shift (name : String) (orient : Number → Number) : R.Keeps (shiftFunction name orient) := by
    refine .three fun a a' b b' c c' ha hb hc => ?_
    refine R.bind (dateArgument ha name) fun t => R.bind (hb.number name) fun amount =>
      R.bind (hc.text name) fun unit => ?_
    split
    · exact ofResult _
    · exact R.raise _
  simp only [Functions.dates, List.forall_mem_cons, List.not_mem_nil, false_implies,
    implies_true, and_true]
  refine ⟨.three fun a a' b b' c c' ha hb hc => ?_, .none (R.done _), part _ _, part _ _, part _ _,
    shift _ _, shift _ _, .one fun a a' h => ?_⟩
  · refine R.bind (ha.number _) fun year => R.bind (hb.number _) fun month =>
      R.bind (hc.number _) fun day => ?_
    split
    · exact R.done _
    · exact R.raise _
  · exact R.bind (h.number _) fun ms => ofResult _

/-! ## Functions of arrays -/

theorem visited {f g : Lambda} (hfg : R.Lambdas f g) (hparams : f.params.length ≤ 2)
    (settles : Value → Bool) (index : Nat) (items : List Value) :
    R.rel (visited f settles index items) (visited g settles index items) := by
  induction items generalizing index with
  | nil => exact R.done []
  | cons item rest ih =>
    refine R.bind (hfg.call [item, .count index] hparams) fun result => ?_
    split
    · exact R.done _
    · exact R.bind (ih (index + 1)) fun later => R.done _

theorem visiting (ha : R.Argument a a') (hb : R.Argument b b') (name : String)
    (settles : Value → Bool) (read : List (Value × Value) → Value) :
    R.rel (visiting name settles read a b) (visiting name settles read a' b') := by
  refine R.bind (ha.collection name) fun items => hb.withLambda name 2 fun f g hfg hparams => ?_
  exact R.bind (visited hfg hparams settles 0 items) fun visits => R.done _

theorem folded {f g : Lambda} (hfg : R.Lambdas f g) (hparams : f.params.length ≤ 3)
    (index : Nat) (items : List Value) (acc : Value) :
    R.rel (folded f index items acc) (folded g index items acc) := by
  induction items generalizing index acc with
  | nil => exact R.done acc
  | cons item rest ih =>
    exact R.bind (hfg.call [acc, item, .count index] hparams) fun acc' => ih (index + 1) acc'

theorem countIf : R.Keeps countIfFunction := by
  refine .two fun a a' b b' ha hb => ?_
  have hsome : b'.lambda?.isSome = b.lambda?.isSome := by
    have hlambda := hb.lambda
    generalize b.lambda? = l?, b'.lambda? = l?' at hlambda
    cases hlambda <;> rfl
  simp only [hsome]
  split
  · exact visiting ha hb _ _ _
  · exact R.bind (ha.collection _) fun items => R.bind hb.value fun criterion => R.done _

theorem flat : R.Keeps flatFunction := by
  refine .oneOrTwo fun a a' b? b?' ha hb => R.bind (ha.collection _) fun items => ?_
  cases hb with
  | none => exact R.done _
  | some hb =>
    refine R.bind (hb.number _) fun x => ?_
    split
    · exact R.done _
    · exact R.raise _

theorem sort : R.Keeps sortFunction := by
  refine .oneOrTwo fun a a' b? b?' ha hb => R.bind (ha.collection _) fun items => ?_
  cases hb with
  | none => exact ofResult _
  | some hb => exact R.bind hb.value fun ascending => ofResult _

theorem collections : ∀ f ∈ collections, R.Keeps f := by
  have visitor (name : String) (settles : Value → Bool) (read : List (Value × Value) → Value) :
      R.Keeps (.two name (Functions.visiting name settles read)) :=
    .two fun a a' b b' ha hb => visiting ha hb name settles read
  simp only [Functions.collections, List.forall_mem_cons, List.not_mem_nil, false_implies,
    implies_true, and_true]
  refine ⟨visitor _ _ _, visitor _ _ _, visitor _ _ _, visitor _ _ _, visitor _ _ _,
    .three fun a a' b b' c c' ha hb hc => ?_, visitor _ _ _, countIf, flat,
    .one fun a a' h => R.bind (h.collection _) fun items => R.done _, sort⟩
  refine R.bind (ha.collection _) fun items => hb.withLambda _ 3 fun f g hfg hparams => ?_
  exact R.bind hc.value fun acc => folded hfg hparams 0 items acc

/-! ## All functions -/

theorem keeps_of_mem {clock : Instant} {f : Builtin} (h : f ∈ catalog clock) : R.Keeps f := by
  simp only [catalog, List.mem_append] at h
  rcases h with (((h | h) | h) | h) | h
  · exact logic f h
  · exact texts f h
  · exact numeric f h
  · exact dates clock f h
  · exact collections f h

/-- Every function makes related evaluations of related arguments. -/
theorem call (clock : Instant) (name : String) (h : R.Arguments args args') :
    R.rel (call clock name args) (call clock name args') := by
  unfold Functions.call
  cases hfind : Functions.find? clock name with
  | none => exact R.raise _
  | some f =>
    rw [Functions.find?] at hfind
    exact keeps_of_mem (List.mem_of_find?_eq_some hfind) args args' h

end Congruence
end Formulary
