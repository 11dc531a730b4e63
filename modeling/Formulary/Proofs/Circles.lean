/-
  Circles of references.

  * `Graph.OnCircle`: a field refers to itself, directly or through others;
  * `Graph.induction_off_circles`: what holds on circles, and of every other field
    once it holds of all that it reads, holds of all fields;
  * `Graph.reads_of_agree`: changing what some fields read changes nothing for
    fields that do not lead to them.
-/
import Formulary.Proofs.Groups
import Mathlib.Data.List.Perm.Subperm

namespace Formulary.Graph

open Relation

variable {g g' : Graph} {u v : String}

/-- A field refers to itself, directly or through others. -/
def OnCircle (g : Graph) (u : String) : Prop := TransGen g.Reads u u

/-- All that a field reads, directly or through others, and the field. -/
def below (g : Graph) (u : String) : NameSet := reach g.precedentsOf (u :: g.names) [u] .empty

theorem mem_below : v ∈ g.below u ↔ ReflTransGen g.Reads u v := by
  unfold below
  rw [mem_reach (by simp) fun _ _ _ hv => List.mem_cons_of_mem _ (precedent_mem_names hv)]
  simp only [List.mem_singleton, exists_eq_left]
  exact Iff.rfl

/-- Off the circles there is less below what a field reads than below the field. -/
theorem below_lt (hu : ¬ g.OnCircle u) (huv : g.Reads u v) :
    (g.below v).names.length < (g.below u).names.length := by
  have hnot : u ∉ (g.below v).names := fun h => hu (.head' huv (mem_below.1 h))
  have hsub : u :: (g.below v).names ⊆ (g.below u).names := by
    intro w hw
    rcases List.mem_cons.1 hw with rfl | hw
    · exact mem_below.2 .refl
    · exact mem_below.2 (.head huv (mem_below.1 hw))
  exact (List.subperm_of_subset (List.nodup_cons.2 ⟨hnot, NameSet.nodup _⟩) hsub).length_le

/-- What holds on circles, and of any other field once it holds of all that it
reads, holds of all fields. -/
theorem induction_off_circles {motive : String → Prop}
    (circle : ∀ u, g.OnCircle u → motive u)
    (step : ∀ u, ¬ g.OnCircle u → (∀ v, g.Reads u v → motive v) → motive u) (u : String) :
    motive u := by
  induction hn : (g.below u).names.length using Nat.strongRecOn generalizing u with
  | _ n ih =>
    by_cases hu : g.OnCircle u
    · exact circle u hu
    · exact step u hu fun v huv => ih _ (hn ▸ below_lt hu huv) v rfl

theorem OnCircle.of_within {within : NameSet} (h : TransGen (g.ReadsWithin within) u u) :
    g.OnCircle u :=
  TransGen.mono (fun _ _ h => h.2.2) _ _ h

/-- A circle lies in every set that holds one of its fields and what is read. -/
theorem OnCircle.within {within : NameSet} (hu : g.OnCircle u) (hmem : u ∈ within)
    (hclosed : ∀ v ∈ within, ReflTransGen g.Reads u v → ∀ w, g.Reads v w →
      ReflTransGen g.Reads w u → w ∈ within) : TransGen (g.ReadsWithin within) u u := by
  suffices ∀ v, TransGen g.Reads u v → ReflTransGen g.Reads v u →
      v ∈ within ∧ TransGen (g.ReadsWithin within) u v from (this u hu .refl).2
  intro v huv hvu
  induction huv with
  | single h =>
    have hw := hclosed u hmem .refl _ h hvu
    exact ⟨hw, .single ⟨hmem, hw, h⟩⟩
  | tail huv h ih =>
    obtain ⟨hv, hway⟩ := ih (.head h hvu)
    have hw := hclosed _ hv huv.to_reflTransGen _ h hvu
    exact ⟨hw, hway.tail ⟨hv, hw, h⟩⟩

/-! ## Changes elsewhere -/

section

variable {changed : List String}
  (hagree : ∀ u, u ∉ changed → ∀ v, g.Reads u v → g'.Reads u v)
  (hu : ∀ x ∈ changed, ¬ ReflTransGen g'.Reads u x)

include hagree hu

theorem reads_of_agree (h : ReflTransGen g.Reads u v) : ReflTransGen g'.Reads u v := by
  induction h with
  | refl => exact .refl
  | tail _ hvw ih => exact ih.tail (hagree _ (fun hv => hu _ hv ih) _ hvw)

theorem reads_trans_of_agree (h : TransGen g.Reads u v) : TransGen g'.Reads u v := by
  obtain ⟨w, huw, hwv⟩ := TransGen.tail'_iff.1 h
  have hw := reads_of_agree hagree hu huw
  exact .tail' hw (hagree w (fun hmem => hu w hmem hw) v hwv)

end

end Formulary.Graph
