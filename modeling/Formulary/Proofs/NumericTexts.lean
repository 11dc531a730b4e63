/-
  Texts that count as numbers.

  The functions of numbers and `toNumber` drop the blanks around a text and read the rest in the
  same way.  But a text can denote infinity, or what is not a number.  `toNumber` refuses it then,
  and the functions of numbers do not.

  * `Functions.CountsAs`: a value is the same as another one to all functions of numbers;
  * `Functions.OneNotion`: for a text, the functions of numbers agree with `toNumber`;
  * `Functions.oneNotion_iff`: they do so exactly if what the text denotes is finite.
-/
import Formulary.Proofs.Aggregates
import Formulary.Proofs.Overflow

namespace Formulary.Functions

open Value

/-! ## What texts count as -/

/-- A value counts as another one: in its place, among any other values, the functions of
numbers make of it what they make of the other one. -/
def CountsAs (v w : Value) : Prop :=
  ∀ name ∈ ["sum", "max", "min", "avg", "average"], ∀ before after r,
    Makes name (before ++ v :: after) r ↔ Makes name (before ++ w :: after) r

/-- For a text there is one notion of number.  It counts as the number that `toNumber` makes of
it, and where `toNumber` cannot convert it, it counts as nothing, like null, and is no number
to a function that needs one. -/
structure OneNotion (s : String) : Prop where
  number : ∀ x, CountsAs (.text s) (.number x) ↔ Makes "toNumber" [.text s] (.ok (.number x))
  nothing : CountsAs (.text s) .null ↔
    Makes "toNumber" [.text s] (.error (.conversion (Text.trimmed s)))
  fault : ∀ name ∈ ["max", "min", "avg", "average"],
    Makes name [.array [.text s]] (.error (.type name "no numeric values")) ↔
      Makes "toNumber" [.text s] (.error (.conversion (Text.trimmed s)))

theorem makes_reduction_iff {name : String} {f : List Number → Except Fault Number}
    (h : (name, f) ∈ reductions) {vs : List Value} (hvs : vs ≠ []) {r : Result} :
    Makes name vs r ↔ r = reduced f (leavesIn vs) :=
  (makes_reduction h hvs).iff

/-- A single value that is no array is its own largest number, if it is one. -/
theorem reduced_max_singleton {v : Value} (hv : v.isArray = false) :
    reduced (atLeastOne "max" largest) (leavesIn [v]) = match v.numeral? with
      | some x => .ok (.number x)
      | none => .error (.type "max" "no numeric values") := by
  rw [leavesIn, leaves_of_not_isArray hv]
  cases h : v.numeral? <;> simp [leavesIn, reduced, h, atLeastOne, largest, Except.map]

/-- Of values that are no arrays, those count as the same that contribute the same number. -/
theorem countsAs_iff {v w : Value} (hv : v.isArray = false) (hw : w.isArray = false) :
    CountsAs v w ↔ v.numeral? = w.numeral? := by
  constructor
  · intro h
    have hmax : ("max", atLeastOne "max" largest) ∈ reductions := by simp [reductions]
    have hmade : Makes "max" [v] (reduced (atLeastOne "max" largest) (leavesIn [w])) :=
      (h "max" (by simp) [] [] _).2 (makes_reduction hmax (List.cons_ne_nil _ _))
    rw [makes_reduction_iff hmax (List.cons_ne_nil _ _), reduced_max_singleton hv,
      reduced_max_singleton hw] at hmade
    revert hmade
    cases v.numeral? <;> cases w.numeral? <;> simp [eq_comm]
  · intro h name hname before after r
    obtain ⟨⟨name, f⟩, hf, rfl⟩ := List.mem_map.1 (show name ∈ reductions.map Prod.fst from hname)
    rw [makes_reduction_iff hf (by simp), makes_reduction_iff hf (by simp)]
    simp only [reduced, leavesIn_append, leavesIn, leaves_of_not_isArray hv,
      leaves_of_not_isArray hw, List.filterMap_append, List.filterMap_cons, h]

/-- A text is no number at all to the functions that need one if it denotes none. -/
theorem makes_fault_iff {name : String} (hname : name ∈ ["max", "min", "avg", "average"])
    (s : String) :
    Makes name [.array [.text s]] (.error (.type name "no numeric values")) ↔
      Number.ofText? (Text.trimmed s) = none := by
  obtain ⟨f, hf⟩ := exists_atLeastOne hname
  rw [makes_reduction_iff hf (List.cons_ne_nil _ _)]
  cases hs : Number.ofText? (Text.trimmed s) <;>
    simp [reduced, leavesIn, leaves, numeral?, hs, atLeastOne, Except.map]

/-! ## What `toNumber` makes of texts -/

theorem makes_toNumber (v : Value) : Makes "toNumber" [v] (toNumber v) := by
  have hmem : toNumberFunction ∈ texts := by simp [texts]
  refine makes_one (f := toNumberFunction) (mem_catalog_of_mem_texts hmem) ?_
  intro a σ answer s s' ha
  refine (Evaluation.run_bind_of_ok ha _).trans ?_
  rw [Evaluation.run_ofResult]

theorem makes_toNumber_ok_iff {s : String} {x : Number} :
    Makes "toNumber" [.text s] (.ok (.number x)) ↔
      Number.ofText? (Text.trimmed s) = some x ∧ x.isFinite = true := by
  rw [(makes_toNumber _).iff, toNumber]
  cases Number.ofText? (Text.trimmed s) with
  | none => simp
  | some y => dsimp only; split <;> grind

theorem makes_toNumber_error_iff {s : String} :
    Makes "toNumber" [.text s] (.error (.conversion (Text.trimmed s))) ↔
      ∀ x, Number.ofText? (Text.trimmed s) = some x → x.isFinite = false := by
  rw [(makes_toNumber _).iff, toNumber]
  cases Number.ofText? (Text.trimmed s) with
  | none => simp
  | some y => cases hy : y.isFinite <;> simp [hy]

/-- **Main result.** There is one notion of number in the functions of numbers and in `toNumber`
for exactly those texts that do not denote infinity or what is not a number: without the blanks
around it and its sign, the text is neither `inf`, `infinity` or `nan` in any case nor a decimal
that is rounded to infinity.  Such a text counts as what it denotes, and `toNumber` cannot
convert it. -/
theorem oneNotion_iff (s : String) :
    (OneNotion s ↔ ¬ Number.DenotesBeyond (Text.trimmed s)) ∧
      (Number.DenotesBeyond (Text.trimmed s) ↔
        ∃ x, x.isFinite = false ∧ CountsAs (.text s) (.number x) ∧
          Makes "toNumber" [.text s] (.error (.conversion (Text.trimmed s)))) := by
  have hnumber (x : Number) : CountsAs (.text s) (.number x) ↔
      Number.ofText? (Text.trimmed s) = some x := countsAs_iff rfl rfl
  have hnothing : CountsAs (.text s) .null ↔ Number.ofText? (Text.trimmed s) = none :=
    countsAs_iff rfl rfl
  rw [← Number.exists_not_finite_iff]
  refine ⟨⟨fun h => ?_, fun h => ?_⟩, ?_⟩
  · rintro ⟨x, hx, hfinite⟩
    have hok := makes_toNumber_ok_iff.1 ((h.number x).1 ((hnumber x).2 hx))
    exact absurd (hfinite.symm.trans hok.2) Bool.false_ne_true
  · have hfinite (x : Number) (hx : Number.ofText? (Text.trimmed s) = some x) :
        x.isFinite = true := Bool.eq_true_of_not_eq_false fun hx' => h ⟨x, hx, hx'⟩
    have herror : Makes "toNumber" [.text s] (.error (.conversion (Text.trimmed s))) ↔
        Number.ofText? (Text.trimmed s) = none := by
      rw [makes_toNumber_error_iff]
      cases hs : Number.ofText? (Text.trimmed s) with
      | none => simp
      | some x => simp [hfinite x hs]
    refine ⟨fun x => ?_, ?_, fun name hname => ?_⟩
    · rw [hnumber, makes_toNumber_ok_iff]
      exact ⟨fun hx => ⟨hx, hfinite x hx⟩, And.left⟩
    · rw [hnothing, herror]
    · rw [makes_fault_iff hname, herror]
  · refine exists_congr fun x => ?_
    rw [hnumber, makes_toNumber_error_iff]
    constructor
    · rintro ⟨hx, hfinite⟩
      exact ⟨hfinite, hx, fun y hy => Option.some.inj (hx.symm.trans hy) ▸ hfinite⟩
    · rintro ⟨hfinite, hx, -⟩
      exact ⟨hx, hfinite⟩

/-- The word for infinity is a number to `min`, and none to `toNumber`. -/
theorem not_oneNotion_inf :
    Makes "min" [.array [.text "inf"]] (.ok (.number (Number.infinity false))) ∧
      Makes "toNumber" [.text "inf"] (.error (.conversion "inf")) ∧ ¬ OneNotion "inf" := by
  have htext : Number.ofText? (Text.trimmed "inf") = some (Number.infinity false) := by
    decide +kernel
  have hmem : ("min", atLeastOne "min" smallest) ∈ reductions := by simp [reductions]
  have hmin : Makes "min" [.array [.text "inf"]] (.ok (.number (Number.infinity false))) := by
    rw [makes_reduction_iff hmem (List.cons_ne_nil _ _)]
    simp [reduced, leavesIn, leaves, numeral?, htext, atLeastOne, smallest, Except.map]
  have hfault : Makes "toNumber" [.text "inf"] (.error (.conversion (Text.trimmed "inf"))) := by
    rw [makes_toNumber_error_iff, htext]
    intro x hx
    rw [← Option.some.inj hx]
    decide
  refine ⟨hmin, hfault, fun h => ?_⟩
  have heq := hmin.unique ((h.fault "min" (by simp)).2 hfault)
  exact absurd heq (by simp)

end Formulary.Functions
