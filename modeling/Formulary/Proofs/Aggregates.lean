/-
  Aggregates of nested values.

  `sum`, `max`, `min`, `avg` and `count` go into the arrays among their arguments, and into the
  arrays inside these.  The numbers are collected by one recursion and the values counted by
  another.  Both see the leaves from left to right and nothing of the arrays around them.

  * `Value.numeral?`: the number that a leaf contributes, if it contributes one;
  * `Functions.gathered_eq`: one induction for both recursions, with `Functions.numbersIn_eq` and
    `Functions.countIn_eq`;
  * `Functions.reductions`: what the functions of numbers make of the numbers;
  * `Functions.aggregates_of_leaves`: values with the same leaves have the same aggregates, and
    which leaves have no part in them.
-/
import Formulary.Proofs.Flattening

namespace Formulary

/-- The number that a value contributes which is no array: itself, or what a text denotes. -/
def Value.numeral? : Value → Option Number
  | .number x => some x
  | .text s => Number.ofText? (Text.trimmed s)
  | _ => none

theorem Value.numeral?_eq_none {v : Value} (hnumber : ∀ x, v ≠ .number x)
    (htext : ∀ s, v = .text s → Number.ofText? (Text.trimmed s) = none) : v.numeral? = none := by
  cases v with
  | number x => exact absurd rfl (hnumber x)
  | text s => exact htext s rfl
  | _ => rfl

namespace Functions

open Value

/-! ## Leaves -/

/-- What is gathered from values one after the other, and from an array as from its items, is
gathered from the leaves. -/
theorem gathered_eq {α : Type} {join : α → α → α} (f : Value → α) (fIn g : List Value → α)
    (nil : fIn [] = g []) (cons : ∀ v rest, fIn (v :: rest) = join (f v) (fIn rest))
    (array : ∀ items, f (.array items) = fIn items)
    (leaf : ∀ v, v.isArray = false → f v = g [v])
    (append : ∀ xs ys, g (xs ++ ys) = join (g xs) (g ys)) (vs : List Value) :
    fIn vs = g (leavesIn vs) := by
  -- along the items first, for the induction on values to use inside arrays
  have hitems (items : List Value) (h : ∀ v ∈ items, f v = g v.leaves) :
      fIn items = g (leavesIn items) := by
    induction items with
    | nil => exact nil
    | cons v rest ih =>
      obtain ⟨hv, hrest⟩ := List.forall_mem_cons.1 h
      rw [cons, leavesIn, append, hv, ih hrest]
  have hvalue (v : Value) : f v = g v.leaves := by
    induction v using induct_items with
    | arrays items ih => exact (array items).trans (hitems items ih)
    | others v hv => rw [leaves_of_not_isArray hv, leaf v hv]
  exact hitems vs fun v _ => hvalue v

/-- The numbers are those of the leaves. -/
theorem numbersIn_eq (vs : List Value) : numbersIn vs = (leavesIn vs).filterMap numeral? := by
  refine gathered_eq numbersOf numbersIn (List.filterMap numeral?) rfl
    (fun v rest => by rw [numbersIn]) (fun _ => rfl) (fun v hv => ?_)
    (fun _ _ => List.filterMap_append) vs
  cases v with
  | array items => exact absurd hv nofun
  | text s => cases h : Number.ofText? (Text.trimmed s) <;> simp [numbersOf, numeral?, h]
  | _ => rfl

/-- The values are counted that are leaves other than null. -/
theorem countIn_eq (vs : List Value) :
    countIn vs = (leavesIn vs).countP fun leaf => !leaf.isNull := by
  refine gathered_eq countOf countIn (List.countP fun leaf => !leaf.isNull) rfl
    (fun v rest => by rw [countIn]) (fun _ => rfl) (fun v hv => ?_)
    (fun _ _ => List.countP_append) vs
  cases v with
  | array items => exact absurd hv nofun
  | _ => rfl

/-! ## Functions of numbers -/

/-- What is made of one number or more. -/
def atLeastOne (name : String) (f : Number → List Number → Number) :
    List Number → Except Fault Number
  | [] => .error (.type name "no numeric values")
  | x :: rest => .ok (f x rest)

/-- The functions of numbers, and what they make of the numbers among their arguments. -/
def reductions : List (String × (List Number → Except Fault Number)) :=
  [("sum", fun xs => .ok (Number.sum xs)), ("max", atLeastOne "max" largest),
    ("min", atLeastOne "min" smallest), ("avg", atLeastOne "avg" mean),
    ("average", atLeastOne "average" mean)]

theorem exists_atLeastOne {name : String} (h : name ∈ ["max", "min", "avg", "average"]) :
    ∃ f, (name, atLeastOne name f) ∈ reductions := by
  simp only [List.mem_cons, List.not_mem_nil, or_false] at h
  rcases h with rfl | rfl | rfl | rfl <;> exact ⟨_, by simp [reductions]; rfl⟩

theorem mem_catalog_of_mem_numeric {f : Builtin} (hf : f ∈ numeric) (clock : Instant) :
    f ∈ catalog clock :=
  List.mem_append_left _ (List.mem_append_left _ (List.mem_append_right _ hf))

theorem someNumbers_eq (name : String) (f : Number → List Number → Number) :
    someNumbers name f = numbersFunction name (atLeastOne name f) := by
  refine congrArg (numbersFunction name) (funext fun xs => ?_)
  cases xs <;> rfl

theorem mem_numeric_of_mem_reductions {name : String} {f : List Number → Except Fault Number}
    (h : (name, f) ∈ reductions) : numbersFunction name f ∈ numeric := by
  simp only [reductions, List.mem_cons, Prod.mk.injEq, List.not_mem_nil, or_false] at h
  rcases h with ⟨rfl, rfl⟩ | ⟨rfl, rfl⟩ | ⟨rfl, rfl⟩ | ⟨rfl, rfl⟩ | ⟨rfl, rfl⟩ <;>
    simp [numeric, sumFunction, someNumbers_eq]

/-- What is made of the numbers among leaves. -/
def reduced (f : List Number → Except Fault Number) (leaves : List Value) : Result :=
  (f (leaves.filterMap numeral?)).map .number

/-- What a function makes of one value or more, if it goes on without questions. -/
theorem makes_many {name : String} {next : List Value → Evaluation Value}
    (hmem : .many name (fun args => Argument.values args >>= next) ∈ numeric)
    {vs : List Value} (hvs : vs ≠ []) {r : Result} (hnext : next vs = .ofResult r) :
    Makes name vs r := by
  obtain ⟨v, rest, rfl⟩ := List.exists_cons_of_ne_nil hvs
  refine makes_of_apply (mem_catalog_of_mem_numeric hmem) fun args σ answer s s' hargs => ?_
  obtain ⟨a, others, s₁, rfl, -, -⟩ := Argument.run_values_cons.1 hargs
  refine (Evaluation.run_bind_of_ok hargs _).trans ?_
  rw [hnext, Evaluation.run_ofResult]

theorem makes_reduction {name : String} {f : List Number → Except Fault Number}
    (h : (name, f) ∈ reductions) {vs : List Value} (hvs : vs ≠ []) :
    Makes name vs (reduced f (leavesIn vs)) := by
  refine makes_many (mem_numeric_of_mem_reductions h) hvs ?_
  rw [numbersIn_eq, reduced]

theorem makes_count {vs : List Value} (hvs : vs ≠ []) :
    Makes "count" vs (.ok (.count ((leavesIn vs).countP fun leaf => !leaf.isNull))) := by
  have hmem : countFunction ∈ numeric := by simp [numeric]
  refine makes_many hmem hvs ?_
  rw [countIn_eq]
  rfl

/-- **Main result.** Aggregates see only the leaves of their arguments.  Of two lists of values
with the same leaves from left to right, however these are grouped into arrays, the functions of
numbers make the same of the numbers among the leaves, be it a number or the fault that there
are none, and `count` counts all leaves but the nulls.  A leaf that is neither a number nor a
text that denotes one, such as an object, a truth value, a date or null, has no part in the
functions of numbers: they make the same of the leaves without it. -/
theorem aggregates_of_leaves (vs ws : List Value) (hvs : vs ≠ []) (hws : ws ≠ [])
    (hleaves : leavesIn vs = leavesIn ws) :
    (∀ name f, (name, f) ∈ reductions →
      Makes name vs (reduced f (leavesIn vs)) ∧ Makes name ws (reduced f (leavesIn vs))) ∧
    (∀ name ∈ ["max", "min", "avg", "average"], (leavesIn vs).filterMap numeral? = [] →
      Makes name vs (.error (.type name "no numeric values")) ∧
        Makes name ws (.error (.type name "no numeric values"))) ∧
    (∃ n, n + (leavesIn vs).countP isNull = (leavesIn vs).length ∧
      Makes "count" vs (.ok (.count n)) ∧ Makes "count" ws (.ok (.count n))) ∧
    ∀ before v after, leavesIn vs = before ++ v :: after → (∀ x, v ≠ .number x) →
      (∀ s, v = .text s → Number.ofText? (Text.trimmed s) = none) →
      ∀ name f, (name, f) ∈ reductions → Makes name vs (reduced f (before ++ after)) := by
  have hreduction {name f} (h : (name, f) ∈ reductions) :
      Makes name vs (reduced f (leavesIn vs)) ∧ Makes name ws (reduced f (leavesIn vs)) :=
    ⟨makes_reduction h hvs, hleaves ▸ makes_reduction h hws⟩
  refine ⟨fun name f => hreduction, fun name hname hnone => ?_, ?_, ?_⟩
  · obtain ⟨f, hf⟩ := exists_atLeastOne hname
    have hmade := hreduction hf
    rwa [reduced, hnone] at hmade
  · refine ⟨_, ?_, makes_count hvs, hleaves ▸ makes_count hws⟩
    rw [Nat.add_comm, List.length_eq_countP_add_countP isNull]
    simp only [decide_not, Bool.decide_eq_true]
  · intro before v after hsplit hnumber htext name f hf
    have hmade := (hreduction hf).1
    rwa [reduced, hsplit, List.filterMap_append, List.filterMap_cons_none
      (numeral?_eq_none hnumber htext), ← List.filterMap_append] at hmade

/-- Of three leaves two count and one is a number.  An empty text is none. -/
theorem aggregates_of_leaves_regrouped :
    let zero : Value := .number Number.zero
    let vs := [.array [.boolean true, .array [.null]], zero]
    let ws := [.boolean true, .array [], .array [.array [.null, zero]]]
    let us := [Value.array [.text "", .array []]]
    vs ≠ [] ∧ ws ≠ [] ∧ leavesIn vs = leavesIn ws ∧
      Makes "max" vs (.ok zero) ∧ Makes "max" ws (.ok zero) ∧
      Makes "count" vs (.ok (.count 2)) ∧ Makes "count" ws (.ok (.count 2)) ∧
      Makes "min" vs (reduced (atLeastOne "min" smallest) [.null, zero]) ∧
      Makes "avg" us (.error (.type "avg" "no numeric values")) := by
  intro zero vs ws us
  have hus : us ≠ [] := List.cons_ne_nil _ _
  obtain ⟨hreduced, -, ⟨n, hn, hvs, hws⟩, hwithout⟩ :=
    aggregates_of_leaves vs ws (List.cons_ne_nil _ _) (List.cons_ne_nil _ _) rfl
  obtain rfl : n = 2 := Nat.add_right_cancel (m := 1) hn
  obtain ⟨hmax, hmax'⟩ := hreduced "max" _ (by simp [reductions]; rfl)
  have hmin := hwithout [] (.boolean true) [.null, zero] rfl nofun nofun "min"
    (atLeastOne "min" smallest) (by simp [reductions])
  have hnone := (aggregates_of_leaves us us hus hus rfl).2.1 "avg" (by simp) rfl
  exact ⟨nofun, nofun, rfl, hmax, hmax', hvs, hws, hmin, hnone.1⟩

end Functions
end Formulary
