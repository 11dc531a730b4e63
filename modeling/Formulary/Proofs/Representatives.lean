/-
  Representatives of the items of an array.

  `unique` keeps an item if it is like none kept before it.  To be alike is no equivalence:
  numbers are alike up to a tolerance, and arrays, objects and what is not a number are not
  even like themselves.  So what is kept is said by places in the array, and the loop keeps
  this for the items that it has seen.

  * `Functions.Representatives`: what is kept of some items, and where it stands;
  * `Representatives.skip`, `Representatives.keep`: one more item;
  * `Representatives.extend`: the rest of the items, by induction;
  * `Functions.unique_representatives`: what `unique` keeps of an array.
-/
import Formulary.Proofs.Applied
import Mathlib

namespace Formulary
namespace Functions

/-! ## Items that stand for others -/

/-- What is kept of some items, from left to right, and the places where it stands: nothing
kept is like what is kept after it, and an item left out has something before it that is kept
and like it. -/
structure Representatives (items kept : List Value) (places : List Nat) : Prop where
  ascending : places.Pairwise (· < ·)
  at_places : places.map (items[·]?) = kept.map some
  unlike : kept.Pairwise fun v w => v.alike w = false
  covered : ∀ (j : Nat) (w : Value), items[j]? = some w → j ∉ places →
    ∃ i ∈ places, i < j ∧ ∃ v, items[i]? = some v ∧ v.alike w = true

namespace Representatives

variable {items kept : List Value} {places : List Nat} {v w : Value} {i j : Nat}

theorem nil : Representatives [] [] [] where
  ascending := .nil
  at_places := rfl
  unlike := .nil
  covered _ _ h := absurd h nofun

theorem lt_length (h : Representatives items kept places) (hi : i ∈ places) : i < items.length := by
  have hmem : items[i]? ∈ kept.map some := h.at_places ▸ List.mem_map_of_mem hi
  obtain ⟨v, -, hv⟩ := List.mem_map.1 hmem
  exact (List.getElem?_eq_some_iff.1 hv.symm).1

theorem exists_place (h : Representatives items kept places) (hv : v ∈ kept) :
    ∃ i ∈ places, items[i]? = some v := by
  have hmem : some v ∈ places.map (items[·]?) := h.at_places ▸ List.mem_map_of_mem hv
  exact List.mem_map.1 hmem

theorem map_getElem?_append (h : Representatives items kept places) (w : Value) :
    places.map ((items ++ [w])[·]?) = kept.map some := by
  rw [← h.at_places]
  exact List.map_congr_left fun i hi => List.getElem?_append_left (h.lt_length hi)

/-- Behind more items those left out before are still covered. -/
theorem covered_append (h : Representatives items kept places) {w' : Value}
    (hj : (items ++ [w])[j]? = some w') (hjplaces : j ∉ places) (hne : j ≠ items.length) :
    ∃ i ∈ places, i < j ∧ ∃ v, (items ++ [w])[i]? = some v ∧ v.alike w' = true := by
  have hlt : j < items.length := by
    have := (List.getElem?_eq_some_iff.1 hj).1
    rw [List.length_append, List.length_singleton] at this
    omega
  rw [List.getElem?_append_left hlt] at hj
  obtain ⟨i, hi, hij, v, hv, halike⟩ := h.covered j w' hj hjplaces
  exact ⟨i, hi, hij, v, by rw [List.getElem?_append_left (h.lt_length hi), hv], halike⟩

/-- One more item that is like one kept is left out. -/
theorem skip (h : Representatives items kept places) (hv : v ∈ kept) (halike : v.alike w = true) :
    Representatives (items ++ [w]) kept places where
  ascending := h.ascending
  at_places := h.map_getElem?_append w
  unlike := h.unlike
  covered j w' hj hjplaces := by
    by_cases hne : j = items.length
    · subst hne
      obtain rfl : w = w' := by simpa using hj
      obtain ⟨i, hi, hiv⟩ := h.exists_place hv
      have hlt := h.lt_length hi
      exact ⟨i, hi, hlt, v, by rw [List.getElem?_append_left hlt, hiv], halike⟩
    · exact h.covered_append hj hjplaces hne

/-- One more item that is like none kept is kept too. -/
theorem keep (h : Representatives items kept places) (hunlike : ∀ v ∈ kept, v.alike w = false) :
    Representatives (items ++ [w]) (kept ++ [w]) (places ++ [items.length]) where
  ascending := by
    refine List.pairwise_append.2 ⟨h.ascending, List.pairwise_singleton _ _, fun i hi j hj => ?_⟩
    rw [List.mem_singleton.1 hj]
    exact h.lt_length hi
  at_places := by simp [h.map_getElem?_append w]
  unlike := by
    refine List.pairwise_append.2 ⟨h.unlike, List.pairwise_singleton _ _, fun v hv u hu => ?_⟩
    rw [List.mem_singleton.1 hu]
    exact hunlike v hv
  covered j w' hj hjplaces := by
    obtain ⟨hold, hnew⟩ := not_or.1 (List.mem_append.not.1 hjplaces)
    obtain ⟨i, hi, hcovered⟩ := h.covered_append hj hold (List.mem_singleton.not.1 hnew)
    exact ⟨i, List.mem_append_left _ hi, hcovered⟩

/-- What the loop keeps in the end, from what it has kept of the items that it has seen. -/
theorem extend (h : Representatives items kept places) (rest : List Value) :
    ∃ places', Representatives (items ++ rest) (distinct kept rest) places' := by
  induction rest generalizing items kept places with
  | nil => exact ⟨places, by rwa [List.append_nil]⟩
  | cons w rest ih =>
    rw [distinct, ← List.singleton_append, ← List.append_assoc]
    split
    next hlike =>
      obtain ⟨v, hv, halike⟩ := List.any_eq_true.1 hlike
      exact ih (h.skip hv halike)
    next hunlike =>
      refine ih (h.keep fun v hv => ?_)
      exact Bool.eq_false_of_not_eq_true fun halike => hunlike (List.any_eq_true.2 ⟨v, hv, halike⟩)

/-- The first item is kept. -/
theorem zero_mem (h : Representatives items kept places) (hitems : items ≠ []) : 0 ∈ places := by
  obtain ⟨w, rest, rfl⟩ := List.exists_cons_of_ne_nil hitems
  by_contra hzero
  obtain ⟨i, -, hlt, -⟩ := h.covered 0 w rfl hzero
  exact Nat.not_lt_zero i hlt

/-- What is like nothing is kept. -/
theorem mem_of_alone (h : Representatives items kept places) (hw : items[j]? = some w)
    (halone : ∀ v, Value.alike v w = false) : j ∈ places := by
  by_contra hj
  obtain ⟨i, -, -, v, -, halike⟩ := h.covered j w hw hj
  exact absurd halike (by rw [halone]; exact Bool.false_ne_true)

end Representatives

/-! ## What is kept of an array -/

/-- What is kept is a part of the items. -/
theorem distinct_sublist (kept items : List Value) :
    (distinct kept items).Sublist (kept ++ items) := by
  induction items generalizing kept with
  | nil => rw [distinct, List.append_nil]
  | cons w rest ih =>
    rw [distinct]
    split
    · exact (ih kept).trans (.append (.refl kept) (List.sublist_cons_self w rest))
    · exact List.append_cons kept w rest ▸ ih (kept ++ [w])

/-- Where no item is like a later one, all of them are kept. -/
theorem distinct_of_unlike {kept items : List Value}
    (h : (kept ++ items).Pairwise fun v w => v.alike w = false) :
    distinct kept items = kept ++ items := by
  induction items generalizing kept with
  | nil => rw [distinct, List.append_nil]
  | cons w rest ih =>
    have hunlike : ¬ (kept.any fun v => v.alike w) = true := by
      rw [List.any_eq_true]
      rintro ⟨v, hv, halike⟩
      have hvw := (List.pairwise_append.1 h).2.2 v hv w List.mem_cons_self
      exact Bool.false_ne_true (hvw.symm.trans halike)
    rw [List.append_cons] at h ⊢
    rw [distinct, if_neg hunlike, ih h]

/-- Containers are like nothing. -/
theorem alike_container {w : Value} (hw : w.isContainer = true) (v : Value) :
    v.alike w = false := by
  cases w with
  | array items => cases v <;> rfl
  | object entries => cases v <;> rfl
  | _ => exact absurd hw nofun

theorem makes_unique (items : List Value) :
    Makes "unique" [.array items] (.ok (.array (distinct [] items))) := by
  have hmem : uniqueFunction ∈ collections := by simp [collections]
  refine makes_one (f := uniqueFunction) (mem_catalog_of_mem_collections hmem) ?_
  intro a σ answer s s' ha
  exact Evaluation.run_bind_of_ok (Argument.run_collection ha "unique") _

/-- **Main result.** Of every array, `unique` keeps items in their order and none that is like
one kept before it, and what it leaves out is like something kept before it.  The first item
is kept, and so are all arrays and objects.  Of what is kept it keeps all. -/
theorem unique_representatives (items : List Value) :
    ∃ kept places, Makes "unique" [.array items] (.ok (.array kept)) ∧
      kept.Sublist items ∧ Representatives items kept places ∧ (items ≠ [] → 0 ∈ places) ∧
      (∀ (j : Nat) (w : Value), items[j]? = some w → w.isContainer = true → j ∈ places) ∧
      Makes "unique" [.array kept] (.ok (.array kept)) := by
  obtain ⟨places, hkept⟩ := Representatives.nil.extend items
  have hagain : distinct [] (distinct [] items) = distinct [] items :=
    distinct_of_unlike hkept.unlike
  have hmakes : Makes "unique" [.array (distinct [] items)] (.ok (.array (distinct [] items))) := by
    have h := makes_unique (distinct [] items)
    rwa [hagain] at h
  refine ⟨distinct [] items, places, makes_unique items, distinct_sublist [] items, hkept,
    hkept.zero_mem, fun j w hw hcontainer => ?_, hmakes⟩
  exact hkept.mem_of_alone hw (alike_container hcontainer)

/-- A number is like two others that are not like each other: how many of the three are kept
depends on which comes first. -/
example :
    let x : Value := .number .zero
    let y : Value := .number (.ofDecimal false ⟨5, -11⟩)
    let z : Value := .number (.ofDecimal false ⟨1, -10⟩)
    (distinct [] [x, y, z]).length = 2 ∧ (distinct [] [y, x, z]).length = 1 := by
  decide +kernel

end Functions
end Formulary
