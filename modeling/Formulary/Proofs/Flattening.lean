/-
  Arrays inside arrays.

  Flattening opens the arrays among some items, and the arrays inside these, down to a depth.
  Arrays that stand at different levels stop being opened at different moments, so what it
  does is told by an induction on the depth and on the items.

  * `Value.leaves`, `Value.nesting`: what stands inside arrays and is none, and how deep
    arrays stand inside each other;
  * `Value.leafPaths`: the paths of leaves, with `Value.mem_leafPaths_iff`,
    `Value.pairwise_leafPaths` and `Value.map_at?_leafPaths`: they are all such paths, from
    left to right;
  * `Functions.flatten_flatten`, `Functions.nestingIn_flatten`, `Functions.leavesIn_flatten`:
    the levels add up, each takes away a level of nesting, and none a leaf;
  * `Functions.flatten_levels`: what flattening makes of an array.
-/
import Formulary.Proofs.Applied
import Mathlib

namespace Formulary

/-! ## Leaves -/

namespace Value

def isArray : Value → Bool
  | array _ => true
  | _ => false

/-- What holds of arrays, if it holds of their items, and of all that is no array, holds of
all values. -/
theorem induct_items {motive : Value → Prop}
    (arrays : ∀ items, (∀ v ∈ items, motive v) → motive (array items))
    (others : ∀ v, v.isArray = false → motive v) (v : Value) : motive v :=
  match v with
  | array items => arrays items fun w _ => induct_items arrays others w
  | number _ | text _ | boolean _ | object _ | date _ | null | error _ => others _ rfl
termination_by sizeOf v
decreasing_by
  have := List.sizeOf_lt_of_mem ‹w ∈ items›
  simp only [array.sizeOf_spec]
  omega

mutual

/-- The values inside arrays that are no arrays themselves, from left to right. -/
def leaves : Value → List Value
  | array items => leavesIn items
  | v => [v]

/-- The leaves of items. -/
def leavesIn : List Value → List Value
  | [] => []
  | v :: rest => leaves v ++ leavesIn rest

end

mutual

/-- How many arrays stand inside each other, at the most. -/
def nesting : Value → Nat
  | array items => nestingIn items + 1
  | _ => 0

/-- How many do so inside items. -/
def nestingIn : List Value → Nat
  | [] => 0
  | v :: rest => max (nesting v) (nestingIn rest)

end

mutual

/-- The paths of leaves, from left to right. -/
def leafPaths : Value → List (List Nat)
  | array items => leafPathsFrom 0 items
  | _ => [[]]

/-- The paths of leaves inside items, of which the first one has an index. -/
def leafPathsFrom (index : Nat) : List Value → List (List Nat)
  | [] => []
  | v :: rest => (leafPaths v).map (index :: ·) ++ leafPathsFrom (index + 1) rest

end

/-- What stands inside arrays at a path of indices. -/
def at? : Value → List Nat → Option Value
  | v, [] => some v
  | array items, index :: path => items[index]?.bind (at? · path)
  | _, _ :: _ => none

variable {v : Value}

theorem leaves_of_not_isArray (h : v.isArray = false) : v.leaves = [v] := by
  cases v with
  | array items => exact absurd h nofun
  | _ => rfl

theorem nesting_of_not_isArray (h : v.isArray = false) : v.nesting = 0 := by
  cases v with
  | array items => exact absurd h nofun
  | _ => rfl

theorem leafPaths_of_not_isArray (h : v.isArray = false) : v.leafPaths = [[]] := by
  cases v with
  | array items => exact absurd h nofun
  | _ => rfl

theorem at?_cons_of_not_isArray (h : v.isArray = false) (index : Nat) (path : List Nat) :
    v.at? (index :: path) = none := by
  cases v with
  | array items => exact absurd h nofun
  | _ => rfl

theorem leavesIn_append (xs ys : List Value) : leavesIn (xs ++ ys) = leavesIn xs ++ leavesIn ys := by
  induction xs with
  | nil => rfl
  | cons v rest ih => rw [List.cons_append, leavesIn, leavesIn, ih, List.append_assoc]

theorem nestingIn_append (xs ys : List Value) :
    nestingIn (xs ++ ys) = max (nestingIn xs) (nestingIn ys) := by
  induction xs with
  | nil => rw [List.nil_append, nestingIn, Nat.zero_max]
  | cons v rest ih => rw [List.cons_append, nestingIn, nestingIn, ih, Nat.max_assoc]

theorem leavesIn_of_nestingIn_eq_zero {xs : List Value} (h : nestingIn xs = 0) : leavesIn xs = xs := by
  induction xs with
  | nil => rfl
  | cons v rest ih =>
    obtain ⟨hv, hrest⟩ := Nat.max_eq_zero_iff.1 h
    cases v with
    | array items => exact absurd hv (Nat.succ_ne_zero _)
    | _ => exact congrArg (_ :: ·) (ih hrest)

theorem leafPathsFrom_eq (index : Nat) (items : List Value) :
    leafPathsFrom index items =
      (items.zipIdx index).flatMap fun (v, i) => v.leafPaths.map (i :: ·) := by
  induction items generalizing index with
  | nil => rfl
  | cons v rest ih => rw [leafPathsFrom, List.zipIdx_cons, List.flatMap_cons, ih]

theorem leafPaths_array (items : List Value) :
    (array items).leafPaths = items.zipIdx.flatMap fun (v, i) => v.leafPaths.map (i :: ·) := by
  rw [leafPaths, leafPathsFrom_eq]

/-- The paths of leaves are those that lead to what is no array. -/
theorem mem_leafPaths_iff {path : List Nat} :
    path ∈ v.leafPaths ↔ ∃ w, v.at? path = some w ∧ w.isArray = false := by
  induction v using induct_items generalizing path with
  | others v hv =>
    rw [leafPaths_of_not_isArray hv, List.mem_singleton]
    cases path with
    | nil => simp [at?, hv]
    | cons index path => simp [at?_cons_of_not_isArray hv]
  | arrays items ih =>
    simp only [leafPaths_array, List.mem_flatMap, List.mem_map, Prod.exists,
      List.mem_zipIdx_iff_getElem?]
    cases path with
    | nil => simp [at?, isArray]
    | cons index path =>
      simp only [List.cons.injEq, at?, Option.bind_eq_some_iff]
      constructor
      · rintro ⟨v, i, hv, p, hp, rfl, rfl⟩
        obtain ⟨w, hw, hleaf⟩ := (ih v (List.mem_of_getElem? hv)).1 hp
        exact ⟨w, ⟨v, hv, hw⟩, hleaf⟩
      · rintro ⟨w, ⟨v, hv, hw⟩, hleaf⟩
        exact ⟨v, index, hv, path, (ih v (List.mem_of_getElem? hv)).2 ⟨w, hw, hleaf⟩, rfl, rfl⟩

theorem pairwise_zipIdx {α : Type} (l : List α) (k : Nat) :
    (l.zipIdx k).Pairwise fun a b => a.2 < b.2 := by
  induction l generalizing k with
  | nil => exact .nil
  | cons a rest ih =>
    exact List.pairwise_cons.2 ⟨fun b hb => List.le_snd_of_mem_zipIdx hb, ih (k + 1)⟩

/-- They come from left to right, and each of them once. -/
theorem pairwise_leafPaths (v : Value) : v.leafPaths.Pairwise (· < ·) := by
  induction v using induct_items with
  | others v hv =>
    rw [leafPaths_of_not_isArray hv]
    exact List.pairwise_singleton _ _
  | arrays items ih =>
    rw [leafPaths_array, List.pairwise_flatMap]
    refine ⟨fun ⟨v, i⟩ hv => ?_, (pairwise_zipIdx items 0).imp fun {a b} hlt => ?_⟩
    · rw [List.pairwise_map]
      have hv : v ∈ items := List.mem_of_getElem? (List.mem_zipIdx_iff_getElem?.1 hv)
      exact (ih v hv).imp fun hlt => List.cons_lt_cons_iff.2 (.inr ⟨rfl, hlt⟩)
    · intro p hp q hq
      obtain ⟨p, -, rfl⟩ := List.mem_map.1 hp
      obtain ⟨q, -, rfl⟩ := List.mem_map.1 hq
      exact List.cons_lt_cons_iff.2 (.inl hlt)

/-- They lead to the leaves in their order. -/
theorem map_at?_leafPaths (v : Value) : v.leafPaths.map v.at? = v.leaves.map some := by
  induction v using induct_items with
  | others v hv => rw [leafPaths_of_not_isArray hv, leaves_of_not_isArray hv]; rfl
  | arrays items ih =>
    -- from any place on, so that the induction goes along the items
    have hfrom (before rest : List Value) (hitems : items = before ++ rest) :
        (leafPathsFrom before.length rest).map (array items).at? = (leavesIn rest).map some := by
      induction rest generalizing before with
      | nil => rfl
      | cons v rest ihrest =>
        have hv : items[before.length]? = some v := by simp [hitems]
        have hmem : v ∈ items := List.mem_of_getElem? hv
        have hhead : (v.leafPaths.map (before.length :: ·)).map (array items).at? =
            v.leaves.map some := by
          rw [List.map_map, ← ih v hmem]
          refine List.map_congr_left fun p _ => ?_
          simp [at?, hv]
        have hrest := ihrest (before ++ [v]) (by simp [hitems])
        rw [List.length_append, List.length_singleton] at hrest
        rw [leafPathsFrom, List.map_append, hhead, hrest, leavesIn, List.map_append]
    exact hfrom [] items rfl

end Value

/-! ## Levels -/

namespace Functions

open Value

theorem flatten_array_cons (depth : Nat) (inner rest : List Value) :
    flatten (depth + 1) (.array inner :: rest) = flatten depth inner ++ flatten (depth + 1) rest := by
  rw [flatten, List.flatMap_cons]
  rfl

theorem flatten_cons_of_not_isArray {v : Value} (h : v.isArray = false) (depth : Nat)
    (rest : List Value) : flatten depth (v :: rest) = v :: flatten depth rest := by
  cases depth with
  | zero => rfl
  | succ depth =>
    cases v with
    | array items => exact absurd h nofun
    | _ => rfl

theorem flatten_append (depth : Nat) (xs ys : List Value) :
    flatten depth (xs ++ ys) = flatten depth xs ++ flatten depth ys := by
  cases depth with
  | zero => rfl
  | succ depth => exact List.flatMap_append

/-- Flattening goes into the arrays among the items with one level less, and passes by all
other items. -/
theorem flatten_induct {motive : Nat → List Value → Prop} (zero : ∀ items, motive 0 items)
    (nil : ∀ depth, motive (depth + 1) [])
    (array : ∀ depth inner rest, motive depth inner → motive (depth + 1) rest →
      motive (depth + 1) (.array inner :: rest))
    (other : ∀ depth v rest, v.isArray = false → motive (depth + 1) rest →
      motive (depth + 1) (v :: rest))
    (depth : Nat) (items : List Value) : motive depth items := by
  induction depth generalizing items with
  | zero => exact zero items
  | succ depth ih =>
    induction items with
    | nil => exact nil depth
    | cons v rest ihrest =>
      cases v with
      | array inner => exact array depth inner rest (ih inner) ihrest
      | _ => exact other depth _ rest rfl ihrest

/-- To flatten twice is to flatten by the sum of the depths. -/
theorem flatten_flatten (m n : Nat) (xs : List Value) :
    flatten n (flatten m xs) = flatten (m + n) xs := by
  induction m, xs using flatten_induct with
  | zero items => rw [Nat.zero_add, flatten]
  | nil depth => rw [Nat.add_right_comm]; cases n <;> rfl
  | array depth inner rest hinner hrest =>
    rw [flatten_array_cons, flatten_append, hinner, hrest, Nat.add_right_comm, flatten_array_cons]
  | other depth v rest hv hrest =>
    simp only [flatten_cons_of_not_isArray hv, hrest]

/-- Every level of flattening takes away one level of nesting. -/
theorem nestingIn_flatten (depth : Nat) (xs : List Value) :
    nestingIn (flatten depth xs) = nestingIn xs - depth := by
  induction depth, xs using flatten_induct with
  | zero items => rfl
  | nil depth => rw [nestingIn, Nat.zero_sub]; rfl
  | array depth inner rest hinner hrest =>
    rw [flatten_array_cons, nestingIn_append, hinner, hrest, nestingIn, nesting]
    omega
  | other depth v rest hv hrest =>
    rw [flatten_cons_of_not_isArray hv, nestingIn, nestingIn, nesting_of_not_isArray hv, hrest]
    omega

/-- Flattening keeps the leaves and their order. -/
theorem leavesIn_flatten (depth : Nat) (xs : List Value) : leavesIn (flatten depth xs) = leavesIn xs := by
  induction depth, xs using flatten_induct with
  | zero items => rfl
  | nil depth => rfl
  | array depth inner rest hinner hrest =>
    rw [flatten_array_cons, leavesIn_append, hinner, hrest, leavesIn, leaves]
  | other depth v rest hv hrest =>
    rw [flatten_cons_of_not_isArray hv, leavesIn, leavesIn, hrest]

theorem flatten_eq_leavesIn {depth : Nat} {xs : List Value} (h : nestingIn xs ≤ depth) :
    flatten depth xs = leavesIn xs := by
  have hflat : nestingIn (flatten depth xs) = 0 := by
    rw [nestingIn_flatten]
    exact Nat.sub_eq_zero_of_le h
  rw [← leavesIn_flatten depth xs, leavesIn_of_nestingIn_eq_zero hflat]

/-! ## Flattened arrays -/

theorem makes_flat (items : List Value) :
    Makes "flat" [.array items] (.ok (.array (flatten 1 items))) := by
  have hmem : flatFunction ∈ collections := by simp [collections]
  refine makes_one (f := flatFunction) (mem_catalog_of_mem_collections hmem) ?_
  intro a σ answer s s' ha
  exact Evaluation.run_bind_of_ok (Argument.run_collection ha "flat") _

theorem makes_flat_to {x : Number} {depth : Nat} (hdepth : depth? x = some depth)
    (items : List Value) :
    Makes "flat" [.array items, .number x] (.ok (.array (flatten depth items))) := by
  have hmem : flatFunction ∈ collections := by simp [collections]
  refine makes_two (f := flatFunction) (mem_catalog_of_mem_collections hmem) ?_
  intro a b σ answer s s₁ s' ha hb
  refine (Evaluation.run_bind_of_ok (Argument.run_collection ha "flat") _).trans ?_
  refine (Evaluation.run_bind_of_ok (Argument.run_number hb "flat") _).trans ?_
  rw [hdepth]
  rfl

/-- **Main result.** Flattening by one depth and then by another is flattening by their sum, and
by no depth changes nothing.  By the depth of nesting of an array, or by more, it gives the
leaves of the array in their order: what the paths to all that is no array lead to, from left
to right and each once.  This is what `flat` makes of an array, and of an array and a depth. -/
theorem flatten_levels (xs : List Value) :
    (∀ m n, flatten n (flatten m xs) = flatten (m + n) xs) ∧
      flatten 0 xs = xs ∧
      (∀ depth, nestingIn xs ≤ depth → flatten depth xs = leavesIn xs) ∧
      (∃ paths : List (List Nat), paths.Pairwise (· < ·) ∧
        (∀ path, path ∈ paths ↔ ∃ v, (Value.array xs).at? path = some v ∧ v.isArray = false) ∧
        paths.map (Value.array xs).at? = (leavesIn xs).map some) ∧
      Makes "flat" [.array xs] (.ok (.array (flatten 1 xs))) ∧
      ∀ x depth, depth? x = some depth →
        Makes "flat" [.array xs, .number x] (.ok (.array (flatten depth xs))) := by
  refine ⟨fun m n => flatten_flatten m n xs, rfl, fun depth => flatten_eq_leavesIn,
    ⟨(Value.array xs).leafPaths, pairwise_leafPaths _, fun path => mem_leafPaths_iff, ?_⟩,
    makes_flat xs, fun x depth hdepth => makes_flat_to hdepth xs⟩
  rw [map_at?_leafPaths, leaves]

/-- Two levels are enough for three leaves, and one is not. -/
example :
    let xs : List Value := [.null, .array [.array [], .text "a", .array [.null]]]
    nestingIn xs = 2 ∧ flatten 1 xs = [.null, .array [], .text "a", .array [.null]] ∧
      flatten 2 xs = [.null, .text "a", .null] ∧ flatten 7 xs = leavesIn xs := by
  exact ⟨rfl, rfl, rfl, rfl⟩

end Functions
end Formulary
