/-
  What can be reached step by step.

  * `Graph.Leads`: one step;
  * `Graph.mem_reach`: the names reached are those at the end of a chain of steps;
  * `Graph.mem_affected`: the names affected depend on a seed, however far.
-/
import Formulary.Graph
import Formulary.Proofs.Names
import Mathlib.Logic.Relation
import Mathlib.Tactic.Common
import Mathlib.Tactic.Tauto

namespace Formulary.Graph

open Relation

variable {next : String → List String}

/-- One step leads from a name to another. -/
def Leads (next : String → List String) (u v : String) : Prop := v ∈ next u

/-- A chain of steps that starts in a closed set of names stays there. -/
theorem mem_of_leads {r : String → String → Prop} (closed : String → Prop)
    (step : ∀ u v, closed u → r u v → closed v) {u v : String} (hu : closed u)
    (h : ReflTransGen r u v) : closed v := by
  induction h with
  | refl => exact hu
  | tail _ hvw ih => exact step _ _ ih hvw

theorem reach_sound {free todo : List String} {found : NameSet} {x : String}
    (h : x ∈ reach next free todo found) :
    x ∈ found ∨ ∃ t ∈ todo, ReflTransGen (Leads next) t x := by
  fun_induction reach next free todo found with
  | case1 => exact .inl h
  | case2 free found name rest hfree ih =>
    rcases ih h with h | ⟨t, ht, htx⟩
    · rcases NameSet.mem_insert.1 h with rfl | h
      · exact .inr ⟨_, List.mem_cons_self, .refl⟩
      · exact .inl h
    · rcases List.mem_append.1 ht with ht | ht
      · exact .inr ⟨name, List.mem_cons_self, .head ht htx⟩
      · exact .inr ⟨t, List.mem_cons_of_mem _ ht, htx⟩
  | case3 free found name rest hfree ih =>
    exact (ih h).imp_right fun ⟨t, ht, htx⟩ => ⟨t, List.mem_cons_of_mem _ ht, htx⟩

/-- Where names to do are free or found, and so is all that they lead to, nothing
is missed: the names reached hold them and are closed under steps. -/
theorem reach_complete {free todo : List String} (found : NameSet)
    (htodo : ∀ t ∈ todo, t ∈ free ∨ t ∈ found)
    (hfree : ∀ u ∈ free, ∀ v ∈ next u, v ∈ free ∨ v ∈ found)
    (hfound : ∀ u ∈ found, ∀ v ∈ next u, v ∈ found ∨ v ∈ todo) :
    (∀ u, u ∈ found ∨ u ∈ todo → u ∈ reach next free todo found) ∧
      ∀ u ∈ reach next free todo found, ∀ v ∈ next u, v ∈ reach next free todo found := by
  fun_induction reach next free todo found with
  | case1 free found =>
    exact ⟨fun u hu => hu.resolve_right List.not_mem_nil,
      fun u hu v hv => (hfound u hu v hv).resolve_right List.not_mem_nil⟩
  | case2 free found name rest hname ih =>
    have hmem : ∀ u, u ∈ free ∨ u ∈ found → u ∈ free.erase name ∨ u ∈ found.insert name := by
      intro u hu
      by_cases h : u = name
      · exact .inr (NameSet.mem_insert.2 (.inl h))
      · rcases hu with hu | hu
        · exact .inl ((List.mem_erase_of_ne h).2 hu)
        · exact .inr (NameSet.mem_insert.2 (.inr hu))
    obtain ⟨hall, hclosed⟩ := ih
      (fun t ht => by
        rcases List.mem_append.1 ht with ht | ht
        · exact hmem t (hfree name hname t ht)
        · exact hmem t (htodo t (List.mem_cons_of_mem _ ht)))
      (fun u hu v hv => hmem v (hfree u (List.mem_of_mem_erase hu) v hv))
      (fun u hu v hv => by
        rcases NameSet.mem_insert.1 hu with rfl | hu
        · exact .inr (List.mem_append_left _ hv)
        · rcases hfound u hu v hv with hv | hv
          · exact .inl (NameSet.mem_insert.2 (.inr hv))
          · rcases List.mem_cons.1 hv with rfl | hv
            · exact .inl (NameSet.mem_insert.2 (.inl rfl))
            · exact .inr (List.mem_append_right _ hv))
    refine ⟨fun u hu => hall u ?_, hclosed⟩
    rcases hu with hu | hu
    · exact .inl (NameSet.mem_insert.2 (.inr hu))
    · rcases List.mem_cons.1 hu with rfl | hu
      · exact .inl (NameSet.mem_insert.2 (.inl rfl))
      · exact .inr (List.mem_append_right _ hu)
  | case3 free found name rest hname ih =>
    -- a name that is not free any more was found before
    have hin : name ∈ found := (htodo name List.mem_cons_self).resolve_left hname
    have hdrop : ∀ v, v ∈ found ∨ v ∈ name :: rest → v ∈ found ∨ v ∈ rest := by
      rintro v (hv | hv)
      · exact .inl hv
      · rcases List.mem_cons.1 hv with rfl | hv
        · exact .inl hin
        · exact .inr hv
    obtain ⟨hall, hclosed⟩ := ih (fun t ht => htodo t (List.mem_cons_of_mem _ ht)) hfree
      (fun u hu v hv => hdrop v (hfound u hu v hv))
    exact ⟨fun u hu => hall u (hdrop u hu), hclosed⟩

/-- The names reached are those at the end of a chain of steps from a name to do. -/
theorem mem_reach {free todo : List String} (htodo : ∀ t ∈ todo, t ∈ free)
    (hfree : ∀ u ∈ free, ∀ v ∈ next u, v ∈ free) {x : String} :
    x ∈ reach next free todo .empty ↔ ∃ t ∈ todo, ReflTransGen (Leads next) t x := by
  refine ⟨fun h => (reach_sound h).resolve_left (NameSet.not_mem_empty x), ?_⟩
  rintro ⟨t, ht, htx⟩
  obtain ⟨hall, hclosed⟩ := reach_complete .empty (fun t ht => .inl (htodo t ht))
    (fun u hu v hv => .inl (hfree u hu v hv)) (fun u hu => absurd hu (NameSet.not_mem_empty u))
  exact mem_of_leads (· ∈ reach next free todo .empty) (fun u v hu huv => hclosed u hu v huv)
    (hall t (.inr ht)) htx

/-! ## In a graph -/

variable {g : Graph} {u v : String}

theorem mem_names_of_entry {e : String × NameSet}
    (he : e ∈ g.precedents.entries ++ g.dependents.entries) (hv : v = e.1 ∨ v ∈ e.2) :
    v ∈ g.names :=
  List.mem_flatMap.2 ⟨e, he, List.mem_cons.2 hv⟩

theorem mem_precedentsOf :
    v ∈ g.precedentsOf u ↔ ∃ names, g.precedents.find? u = some names ∧ v ∈ names := by
  unfold precedentsOf
  cases g.precedents.find? u with
  | none => simp
  | some names => simp [NameSet.mem_names]

theorem mem_dependentsOf :
    v ∈ g.dependentsOf u ↔ ∃ names, g.dependents.find? u = some names ∧ v ∈ names := by
  unfold dependentsOf
  cases g.dependents.find? u with
  | none => simp
  | some names => simp [NameSet.mem_names]

theorem precedent_mem_names (h : v ∈ g.precedentsOf u) : v ∈ g.names := by
  obtain ⟨names, hfind, hv⟩ := mem_precedentsOf.1 h
  exact mem_names_of_entry (List.mem_append_left _ (NameMap.mem_of_find? hfind)) (.inr hv)

theorem dependent_mem_names (h : v ∈ g.dependentsOf u) : v ∈ g.names := by
  obtain ⟨names, hfind, hv⟩ := mem_dependentsOf.1 h
  exact mem_names_of_entry (List.mem_append_right _ (NameMap.mem_of_find? hfind)) (.inr hv)

theorem mem_fields : u ∈ g.fields ↔ (g.precedents.find? u).isSome := by
  rw [fields, NameSet.mem_ofList, NameMap.mem_names]

/-- The names affected by seeds are those that depend on one, directly or through
others. -/
theorem mem_affected {seeds : List String} :
    u ∈ g.affected seeds ↔ ∃ s ∈ seeds, ReflTransGen (Leads g.dependentsOf) s u :=
  mem_reach (fun _ ht => List.mem_append_left _ ht)
    fun _ _ _ hv => List.mem_append_right _ (dependent_mem_names hv)

end Formulary.Graph
