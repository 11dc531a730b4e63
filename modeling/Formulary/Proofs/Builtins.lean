/-
  Functions make nothing but fine values of fine arguments.

  The functions follow the catalog; those that only pass on what they were given are the
  ones that need an argument.

  * `Provenance.Argument`, `Provenance.Keeps`: arguments that are fine, and functions that
    make fine values of them;
  * `Provenance.call`: every function does.
-/
import Formulary.Expr.Eval
import Formulary.Proofs.Provenance

namespace Formulary.Provenance

/-! ## Arguments -/

section

variable (P : Provenance)

/-- A call of a lambda with fine values comes to a fine one. -/
def Calls (f : Lambda) : Prop :=
  ∀ values : List Value, (∀ v ∈ values, P.Fine v) → P.Yields P.Fine (f.call values)

/-- The value of an argument is fine, and so is what its lambda makes of fine values. -/
structure Argument (a : Formulary.Argument) : Prop where
  value : P.Yields P.Fine a.value
  lambda : ∀ f, a.lambda? = some f → P.Calls f

/-- A function makes fine values of fine arguments. -/
def Keeps (f : Builtin) : Prop :=
  ∀ args, (∀ a ∈ args, P.Argument a) → P.Yields P.Fine (f.apply args)

end

variable {P : Provenance} {v : Value} {args : List Formulary.Argument}
  {a b : Formulary.Argument} {name : String}

namespace Keeps

theorem one {apply : Formulary.Argument → Evaluation Value}
    (h : ∀ a, P.Argument a → P.Yields P.Fine (apply a)) : P.Keeps (.one name apply) := by
  intro args hargs
  match args, hargs with
  | [], _ => exact .plain trivial
  | [a], hargs => exact h a (hargs a (by simp))
  | _ :: _ :: _, _ => exact .plain trivial

theorem two {apply : Formulary.Argument → Formulary.Argument → Evaluation Value}
    (h : ∀ a b, P.Argument a → P.Argument b → P.Yields P.Fine (apply a b)) :
    P.Keeps (.two name apply) := by
  intro args hargs
  match args, hargs with
  | [], _ => exact .plain trivial
  | [_], _ => exact .plain trivial
  | [a, b], hargs => exact h a b (hargs a (by simp)) (hargs b (by simp))
  | _ :: _ :: _ :: _, _ => exact .plain trivial

theorem three
    {apply : Formulary.Argument → Formulary.Argument → Formulary.Argument → Evaluation Value}
    (h : ∀ a b c, P.Argument a → P.Argument b → P.Argument c → P.Yields P.Fine (apply a b c)) :
    P.Keeps (.three name apply) := by
  intro args hargs
  match args, hargs with
  | [], _ => exact .plain trivial
  | [_], _ => exact .plain trivial
  | [_, _], _ => exact .plain trivial
  | [a, b, c], hargs =>
    exact h a b c (hargs a (by simp)) (hargs b (by simp)) (hargs c (by simp))
  | _ :: _ :: _ :: _ :: _, _ => exact .plain trivial

theorem none {value : Evaluation Value} (h : P.Yields P.Fine value) :
    P.Keeps (.none name value) := by
  intro args _
  cases args with
  | nil => exact h
  | cons _ _ => exact .plain trivial

theorem oneOrTwo {apply : Formulary.Argument → Option Formulary.Argument → Evaluation Value}
    (h : ∀ a b?, P.Argument a → (∀ b, b? = some b → P.Argument b) →
      P.Yields P.Fine (apply a b?)) : P.Keeps (.oneOrTwo name apply) := by
  intro args hargs
  match args, hargs with
  | [], _ => exact .plain trivial
  | [a], hargs => exact h a .none (hargs a (by simp)) nofun
  | [a, b], hargs =>
    refine h a (some b) (hargs a (by simp)) fun b' hb' => ?_
    obtain rfl := Option.some.inj hb'
    exact hargs b (by simp)
  | _ :: _ :: _ :: _, _ => exact .plain trivial

theorem many {apply : List Formulary.Argument → Evaluation Value}
    (h : ∀ args, (∀ a ∈ args, P.Argument a) → P.Yields P.Fine (apply args)) :
    P.Keeps (.many name apply) := by
  intro args hargs
  cases args with
  | nil => exact .plain trivial
  | cons a rest => exact h _ hargs

end Keeps

namespace Argument

theorem number (h : P.Argument a) (function : String) :
    P.Yields (fun _ => True) (a.number function) := by
  refine h.value.bind fun v _ => ?_
  cases v with
  | number x => exact .done trivial
  | _ => exact .plain trivial

theorem text (h : P.Argument a) (function : String) :
    P.Yields (fun _ => True) (a.text function) := by
  refine h.value.bind fun v _ => ?_
  cases v with
  | text s => exact .done trivial
  | _ => exact .plain trivial

theorem collection (h : P.Argument a) (function : String) :
    P.Yields (fun items => ∀ v ∈ items, P.Fine v) (a.collection function) := by
  refine h.value.bind fun v hv => ?_
  cases v with
  | array items => exact .done (Value.only_array.1 hv)
  | null => exact .done fun _ h => absurd h List.not_mem_nil
  | _ => exact .plain trivial

theorem asLambda (h : P.Argument a) (function : String) (available : Nat) :
    P.Yields P.Calls (a.asLambda function available) := by
  unfold Formulary.Argument.asLambda
  cases hf : a.lambda? with
  | none => exact .plain trivial
  | some f =>
    dsimp only
    split
    · exact .plain trivial
    · exact .done (h.lambda f hf)

theorem values (h : ∀ a ∈ args, P.Argument a) :
    P.Yields (fun vs => ∀ v ∈ vs, P.Fine v) (Formulary.Argument.values args) := by
  induction args with
  | nil => exact .done fun _ h => absurd h List.not_mem_nil
  | cons a rest ih =>
    obtain ⟨ha, hrest⟩ := List.forall_mem_cons.1 h
    exact ha.value.bind fun v hv => (ih hrest).bind fun vs hvs =>
      .done (List.forall_mem_cons.2 ⟨hv, hvs⟩)

end Argument

/-! ## Functions of conditions -/

open Functions

theorem allTrue (h : ∀ a ∈ args, P.Argument a) : P.Yields (fun _ => True) (allTrue args) := by
  induction args with
  | nil => exact .done trivial
  | cons a rest ih =>
    obtain ⟨ha, hrest⟩ := List.forall_mem_cons.1 h
    refine ha.value.bind fun v _ => ?_
    split
    · exact ih hrest
    · exact .done trivial

theorem anyTrue (h : ∀ a ∈ args, P.Argument a) : P.Yields (fun _ => True) (anyTrue args) := by
  induction args with
  | nil => exact .done trivial
  | cons a rest ih =>
    obtain ⟨ha, hrest⟩ := List.forall_mem_cons.1 h
    refine ha.value.bind fun v _ => ?_
    split
    · exact .done trivial
    · exact ih hrest

theorem logic : ∀ f ∈ logic, P.Keeps f := by
  simp only [Functions.logic, List.forall_mem_cons, List.not_mem_nil, false_implies, implies_true,
    and_true]
  refine ⟨.many fun args h => ?_, .many fun args h => ?_, .one fun a h => ?_,
    .three fun a b c ha hb hc => ?_, .one fun a h => ?_⟩
  · exact (allTrue h).bind fun b _ => .done (Value.only_boolean b)
  · exact (anyTrue h).bind fun b _ => .done (Value.only_boolean b)
  · exact h.value.bind fun v _ => .done (Value.only_boolean _)
  · refine ha.value.bind fun v _ => ?_
    split
    · exact hb.value
    · exact hc.value
  · exact h.value.bind fun v _ => .done (Value.only_boolean _)

/-! ## Functions of texts, numbers and dates -/

theorem concatenation {vs : List Value} (h : ∀ v ∈ vs, P.Fine v) :
    P.Comes P.Fine (concatenation vs) := by
  have hitems : ∀ v, P.Fine v → ∀ w ∈ itemsOf v, P.Fine w := by
    intro v hv
    cases v with
    | array items => exact Value.only_array.1 hv
    | _ => exact fun _ h => absurd h List.not_mem_nil
  unfold Functions.concatenation
  split
  · split
    next items =>
      refine .ok ?_
      split
      · exact Value.only_text _
      · exact h _ List.mem_cons_self
    next =>
      refine .ok (Value.only_array.2 fun w hw => ?_)
      obtain ⟨v, hv, hw⟩ := List.mem_flatMap.1 hw
      exact hitems v (h v hv) w hw
  · split
    · exact .plain trivial
    · exact .ok (Value.only_text _)

theorem toNumber (v : Value) : P.Comes P.Fine (toNumber v) := by
  cases v with
  | number x => exact .ok (Value.only_number x)
  | boolean b => exact .ok (Value.only_number _)
  | text s =>
    simp only [Functions.toNumber]
    split
    · split
      · exact .ok (Value.only_number _)
      · exact .plain trivial
    · exact .plain trivial
  | _ => exact .plain trivial

theorem texts : ∀ f ∈ texts, P.Keeps f := by
  have textFunction (name : String) (f : String → String) : P.Keeps (textFunction name f) :=
    .one fun a h => (h.text name).bind fun s _ => .done (Value.only_text _)
  simp only [Functions.texts, List.forall_mem_cons, List.not_mem_nil, false_implies,
    implies_true, and_true]
  refine ⟨.many fun args h => ?_, .two fun a b ha hb => ?_, .one fun a h => ?_,
    textFunction _ _, textFunction _ _, textFunction _ _, .two fun a b ha hb => ?_,
    .one fun a h => ?_, .one fun a h => ?_, .two fun a b ha hb => ?_⟩
  · exact (Argument.values h).bind fun vs hvs => .ofResult (concatenation hvs)
  · refine ha.value.bind fun v _ => ?_
    cases v with
    | text s => exact (hb.text _).bind fun part _ => .done (Value.only_boolean _)
    | null => exact (hb.text _).bind fun part _ => .done (Value.only_boolean _)
    | _ => exact .plain trivial
  · refine h.value.bind fun v _ => ?_
    cases v with
    | text s => exact .done (fine_count _)
    | array items => exact .done (fine_count _)
    | null => exact .done (fine_count _)
    | _ => exact .plain trivial
  · refine ha.value.bind fun v _ => ?_
    cases v with
    | array items => exact (hb.text _).bind fun s _ => .done (Value.only_text _)
    | _ => exact .plain trivial
  · exact h.value.bind fun v _ => .ofResult (toNumber v)
  · exact h.value.bind fun v _ => .done (Value.only_text _)
  · exact ha.value.bind fun v _ => hb.value.bind fun w _ => .done (Value.only_boolean _)

theorem numeric : ∀ f ∈ numeric, P.Keeps f := by
  have numbers (name : String) (f : List Number → Except Fault Number)
      (hf : ∀ xs, P.Comes (fun _ => True) (f xs)) : P.Keeps (numbersFunction name f) :=
    .many fun args h => (Argument.values h).bind fun vs _ =>
      .ofResult ((hf _).map fun x _ => Value.only_number x)
  have some (name : String) (f : Number → List Number → Number) : P.Keeps (someNumbers name f) := by
    refine numbers name _ fun xs => ?_
    cases xs with
    | nil => exact .plain trivial
    | cons x rest => exact .ok trivial
  have number (name : String) (f : Number → Number) : P.Keeps (numberFunction name f) :=
    .one fun a h => (h.number name).bind fun x _ => .done (Value.only_number _)
  simp only [Functions.numeric, List.forall_mem_cons, List.not_mem_nil, false_implies,
    implies_true, and_true]
  refine ⟨numbers _ _ fun xs => .ok trivial, some _ _, some _ _, some _ _, some _ _,
    .many fun args h => ?_, .two fun a b ha hb => ?_, .one fun a h => ?_,
    .two fun a b ha hb => ?_, number _ _, number _ _, .oneOrTwo fun a b? ha hb => ?_⟩
  · exact (Argument.values h).bind fun vs _ => .done (fine_count _)
  · refine (ha.number _).bind fun x _ => (hb.number _).bind fun y _ => .ofResult ?_
    unfold finitePower
    dsimp only
    split
    · exact .plain trivial
    · split
      · exact .plain trivial
      · exact .ok (Value.only_number _)
  · refine (h.number _).bind fun x _ => .ofResult ?_
    unfold squareRoot
    split
    · exact .plain trivial
    · exact .ok (Value.only_number _)
  · refine (ha.number _).bind fun x _ => (hb.number _).bind fun y _ => .ofResult ?_
    unfold remainder
    split
    · exact .plain trivial
    · exact .ok (Value.only_number _)
  · refine (ha.number _).bind fun x _ => ?_
    cases b? with
    | none => exact .done (Value.only_number _)
    | some b => exact ((hb b rfl).number _).bind fun places _ => .done (Value.only_number _)

theorem dateArgument (h : P.Argument a) (function : String) :
    P.Yields (fun _ => True) (dateArgument function a) := by
  refine h.value.bind fun v _ => ?_
  split
  · exact .done trivial
  · exact .plain trivial

theorem shift (operation : String) (t : Instant) (amount : Number) (step : Step) :
    P.Comes (fun _ => True) (Functions.shift operation t amount step) := by
  cases step with
  | months n =>
    simp only [Functions.shift]
    split
    · exact .plain trivial
    · split
      · exact .ok trivial
      · exact .plain trivial
  | milliseconds n => exact shiftBy _ _ _

theorem dates (clock : Instant) : ∀ f ∈ dates clock, P.Keeps f := by
  have part (name : String) (f : Day → Int) : P.Keeps (partFunction name f) :=
    .one fun a h => (dateArgument h name).bind fun t _ => .done (Value.only_number _)
  have shift (name : String) (orient : Number → Number) : P.Keeps (shiftFunction name orient) := by
    refine .three fun a b c ha hb hc => ?_
    refine (dateArgument ha name).bind fun t _ => (hb.number name).bind fun amount _ =>
      (hc.text name).bind fun unit _ => ?_
    split
    · exact .ofResult ((shift _ _ _ _).map fun t _ => Value.only_date t)
    · exact .plain trivial
  simp only [Functions.dates, List.forall_mem_cons, List.not_mem_nil, false_implies,
    implies_true, and_true]
  refine ⟨.three fun a b c ha hb hc => ?_, .none (.done (Value.only_date _)), part _ _, part _ _,
    part _ _, shift _ _, shift _ _, .one fun a h => ?_⟩
  · refine (ha.number _).bind fun year _ => (hb.number _).bind fun month _ =>
      (hc.number _).bind fun day _ => ?_
    split
    · exact .done (Value.only_date _)
    · exact .plain trivial
  · exact (h.number _).bind fun ms _ =>
      .ofResult ((shiftBy _ _ _).map fun t _ => Value.only_date t)

/-! ## Functions of arrays -/

theorem visited {f : Lambda} (hf : P.Calls f) (settles : Value → Bool) (index : Nat)
    {items : List Value} (h : ∀ v ∈ items, P.Fine v) :
    P.Yields (fun visits => ∀ visit ∈ visits, P.Fine visit.1 ∧ P.Fine visit.2)
      (visited f settles index items) := by
  induction items generalizing index with
  | nil => exact .done fun _ h => absurd h List.not_mem_nil
  | cons item rest ih =>
    obtain ⟨hitem, hrest⟩ := List.forall_mem_cons.1 h
    refine (hf [item, .count index] (by simp [hitem])).bind fun result hresult => ?_
    split
    · exact .done (by simp [hitem, hresult])
    · exact (ih (index + 1) hrest).bind fun later hlater =>
        .done (List.forall_mem_cons.2 ⟨⟨hitem, hresult⟩, hlater⟩)

theorem visiting (ha : P.Argument a) (hb : P.Argument b) (name : String)
    (settles : Value → Bool) {read : List (Value × Value) → Value}
    (hread : ∀ visits : List (Value × Value),
      (∀ visit ∈ visits, P.Fine visit.1 ∧ P.Fine visit.2) → P.Fine (read visits)) :
    P.Yields P.Fine (visiting name settles read a b) :=
  (ha.collection name).bind fun _ hitems => (hb.asLambda name 2).bind fun _ hf =>
    (visited hf settles 0 hitems).bind fun visits hvisits => .done (hread visits hvisits)

theorem folded {f : Lambda} (hf : P.Calls f) (index : Nat) {items : List Value} {acc : Value}
    (h : ∀ v ∈ items, P.Fine v) (hacc : P.Fine acc) :
    P.Yields P.Fine (folded f index items acc) := by
  induction items generalizing index acc with
  | nil => exact .done hacc
  | cons item rest ih =>
    obtain ⟨hitem, hrest⟩ := List.forall_mem_cons.1 h
    exact (hf [acc, item, .count index] (by simp [hitem, hacc])).bind fun acc' hacc' =>
      ih (index + 1) hrest hacc'

theorem countIf : P.Keeps countIfFunction := by
  refine .two fun a b ha hb => ?_
  split
  · exact visiting ha hb _ _ fun _ _ => fine_count _
  · exact (ha.collection _).bind fun items _ => hb.value.bind fun criterion _ =>
      .done (fine_count _)

theorem flatten (depth : Nat) {items : List Value} (h : ∀ v ∈ items, P.Fine v) :
    ∀ v ∈ flatten depth items, P.Fine v := by
  induction depth generalizing items with
  | zero => exact h
  | succ depth ih =>
    intro v hv
    obtain ⟨w, hw, hv⟩ := List.mem_flatMap.1 hv
    cases w with
    | array inner => exact ih (Value.only_array.1 (h _ hw)) v hv
    | _ => exact List.mem_singleton.1 hv ▸ h _ hw

theorem flat : P.Keeps flatFunction := by
  refine .oneOrTwo fun a b? ha hb => (ha.collection _).bind fun items hitems => ?_
  cases b? with
  | none => exact .done (Value.only_array.2 (flatten 1 hitems))
  | some b =>
    refine ((hb b rfl).number _).bind fun x _ => ?_
    split
    next depth _ => exact .done (Value.only_array.2 (flatten depth hitems))
    next => exact .plain trivial

theorem mem_of_distinct {kept items : List Value} (h : v ∈ distinct kept items) :
    v ∈ kept ∨ v ∈ items := by
  induction items generalizing kept with
  | nil => exact .inl h
  | cons item rest ih =>
    rw [distinct] at h
    split at h
    · exact (ih h).imp_right (List.mem_cons_of_mem _)
    · rcases ih h with h | h
      · rcases List.mem_append.1 h with h | h
        · exact .inl h
        · exact .inr (List.mem_singleton.1 h ▸ List.mem_cons_self)
      · exact .inr (List.mem_cons_of_mem _ h)

theorem sorted (ascending : Bool) {items : List Value} (h : ∀ v ∈ items, P.Fine v) :
    P.Comes P.Fine ((sorted? ascending items).map .array) := by
  unfold sorted?
  split
  · exact .ok (Value.only_array.2 fun _ h => absurd h List.not_mem_nil)
  · split
    · exact .plain trivial
    · exact .ok (Value.only_array.2 fun v hv => h v (List.mem_mergeSort.1 hv))

theorem sort : P.Keeps sortFunction := by
  refine .oneOrTwo fun a b? ha hb => (ha.collection _).bind fun items hitems => ?_
  cases b? with
  | none => exact .ofResult (sorted true hitems)
  | some b => exact (hb b rfl).value.bind fun _ _ => .ofResult (sorted _ hitems)

theorem fine_spliced (h : P.Fine v) : ∀ w ∈ spliced v, P.Fine w := by
  cases v with
  | array items => exact Value.only_array.1 h
  | _ => exact fun w hw => List.mem_singleton.1 hw ▸ h

theorem collections : ∀ f ∈ collections, P.Keeps f := by
  have visitor (name : String) (settles : Value → Bool) {read : List (Value × Value) → Value}
      (hread : ∀ visits : List (Value × Value),
        (∀ visit ∈ visits, P.Fine visit.1 ∧ P.Fine visit.2) → P.Fine (read visits)) :
      P.Keeps (.two name (Functions.visiting name settles read)) :=
    .two fun a b ha hb => visiting ha hb name settles hread
  simp only [Functions.collections, List.forall_mem_cons, List.not_mem_nil, false_implies,
    implies_true, and_true]
  refine ⟨visitor _ _ fun visits h => ?_, visitor _ _ fun visits h => ?_,
    visitor _ _ fun visits h => ?_, visitor _ _ fun _ _ => Value.only_boolean _,
    visitor _ _ fun _ _ => Value.only_boolean _, .three fun a b c ha hb hc => ?_,
    visitor _ _ fun visits h => ?_, countIf, flat, .one fun a h => ?_, sort⟩
  · refine Value.only_array.2 fun v hv => ?_
    obtain ⟨visit, hvisit, rfl⟩ := List.mem_map.1 hv
    exact (h visit hvisit).2
  · refine Value.only_array.2 fun v hv => ?_
    obtain ⟨visit, hvisit, rfl⟩ := List.mem_map.1 hv
    exact (h visit ((List.mem_filter.1 hvisit).1)).1
  · split
    next visit hvisit => exact (h visit (List.mem_of_find?_eq_some hvisit)).1
    next => exact Value.only_null
  · exact (ha.collection _).bind fun items hitems => (hb.asLambda _ 3).bind fun f hf =>
      hc.value.bind fun acc hacc => folded hf 0 hitems hacc
  · refine Value.only_array.2 fun v hv => ?_
    obtain ⟨visit, hvisit, hv⟩ := List.mem_flatMap.1 hv
    exact fine_spliced (h visit hvisit).2 v hv
  · refine (h.collection _).bind fun items hitems => .done (Value.only_array.2 fun v hv => ?_)
    exact hitems v ((mem_of_distinct hv).resolve_left List.not_mem_nil)

/-! ## All functions -/

theorem keeps_of_mem {clock : Instant} {f : Builtin} (h : f ∈ catalog clock) : P.Keeps f := by
  simp only [catalog, List.mem_append] at h
  rcases h with (((h | h) | h) | h) | h
  · exact logic f h
  · exact texts f h
  · exact numeric f h
  · exact dates clock f h
  · exact collections f h

/-- Every function makes fine values of fine arguments. -/
theorem call (clock : Instant) (name : String) (h : ∀ a ∈ args, P.Argument a) :
    P.Yields P.Fine (call clock name args) := by
  unfold Functions.call
  cases hfind : Functions.find? clock name with
  | none => exact .plain trivial
  | some f =>
    rw [Functions.find?] at hfind
    exact keeps_of_mem (List.mem_of_find?_eq_some hfind) args h

end Formulary.Provenance
