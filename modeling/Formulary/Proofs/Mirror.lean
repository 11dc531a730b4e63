/-
  The two directions of a graph.

  * `Graph.Mirrored`: a field is a dependent of another exactly if the other is a
    precedent of it;
  * `Graph.Tidy`: no field is listed without dependents;
  * `Graph.mirrored_set`, `Graph.mirrored_remove`, `Graph.tidy_set`, `Graph.tidy_remove`:
    changes keep both;
  * `Graph.Made`: a graph that changes made of the empty one, so that it has both;
  * `Graph.Made.eq_of_precedents`: such a graph is determined by its precedents;
  * `Graph.mem_affected_iff`: what is affected, along the precedents.
-/
import Formulary.Proofs.Reach

namespace Formulary.Graph

open Relation

/-- The two directions agree. -/
def Mirrored (g : Graph) : Prop := ∀ u v, u ∈ g.dependentsOf v ↔ v ∈ g.precedentsOf u

/-- No field is listed without dependents. -/
def Tidy (dependents : NameMap NameSet) : Prop :=
  ∀ v names, dependents.find? v = some names → ∃ u, u ∈ names

/-! ## Dependents -/

/-- A field is listed as a dependent of another. -/
def Listed (dependents : NameMap NameSet) (u v : String) : Prop :=
  ∃ names, dependents.find? v = some names ∧ u ∈ names

variable {dependents : NameMap NameSet} {field precedent u v : String} {g : Graph}

theorem listed_dropDependent :
    Listed (dropDependent field dependents precedent) u v ↔
      Listed dependents u v ∧ ¬ (v = precedent ∧ u = field) := by
  unfold dropDependent Listed
  cases hfind : dependents.find? precedent with
  | none => grind
  | some names =>
    simp only
    split
    next hempty =>
      -- the field was the only dependent
      have hnone := NameSet.isEmpty_eq_true.1 hempty
      simp only [NameMap.find?_erase]
      by_cases hv : precedent = v
      · subst hv
        simp only [if_true, reduceCtorEq, false_and, exists_false, hfind, Option.some.injEq,
          true_and, false_iff, not_and, not_not, exists_eq_left']
        intro hu
        by_contra hne
        exact hnone u (NameSet.mem_erase.2 ⟨hu, hne⟩)
      · simp [hv, Ne.symm hv]
    next =>
      simp only [NameMap.find?_insert]
      by_cases hv : precedent = v
      · subst hv
        simp [hfind]
      · simp [hv, Ne.symm hv]

theorem listed_addDependent :
    Listed (addDependent field dependents precedent) u v ↔
      Listed dependents u v ∨ (v = precedent ∧ u = field) := by
  unfold addDependent Listed
  simp only [NameMap.find?_insert]
  by_cases hv : precedent = v
  · subst hv
    cases dependents.find? precedent with
    | none => simp
    | some names => simp [or_comm]
  · simp [hv, Ne.symm hv]

theorem listed_foldl_drop {names : List String} :
    Listed (names.foldl (dropDependent field) dependents) u v ↔
      Listed dependents u v ∧ ¬ (v ∈ names ∧ u = field) := by
  induction names generalizing dependents with
  | nil => simp
  | cons head rest ih =>
    rw [List.foldl_cons, ih, listed_dropDependent, List.mem_cons]
    tauto

theorem listed_foldl_add {names : List String} :
    Listed (names.foldl (addDependent field) dependents) u v ↔
      Listed dependents u v ∨ (v ∈ names ∧ u = field) := by
  induction names generalizing dependents with
  | nil => simp
  | cons head rest ih =>
    rw [List.foldl_cons, ih, listed_addDependent, List.mem_cons]
    tauto

/-! ## Changes -/

theorem mirrored_empty : Mirrored empty := fun _ _ =>
  ⟨fun h => absurd h List.not_mem_nil, fun h => absurd h List.not_mem_nil⟩

theorem listed_clear (hg : g.Mirrored) :
    Listed (g.clear field) u v ↔ v ∈ g.precedentsOf u ∧ u ≠ field := by
  rw [clear, listed_foldl_drop]
  show Listed g.dependents u v ∧ _ ↔ _
  rw [show Listed g.dependents u v ↔ v ∈ g.precedentsOf u from mem_dependentsOf.symm.trans (hg u v)]
  constructor
  · rintro ⟨hv, hnot⟩
    exact ⟨hv, fun hu => hnot ⟨hu ▸ hv, hu⟩⟩
  · rintro ⟨hv, hu⟩
    exact ⟨hv, fun h => hu h.2⟩

theorem find?_precedents_set {precedents : NameSet} :
    (g.set field precedents).precedents.find? u =
      if field = u then some precedents else g.precedents.find? u :=
  NameMap.find?_insert ..

theorem find?_precedents_remove :
    (g.remove field).precedents.find? u =
      if field = u then none else g.precedents.find? u :=
  NameMap.find?_erase ..

theorem mirrored_set (hg : g.Mirrored) (field : String) (precedents : NameSet) :
    (g.set field precedents).Mirrored := by
  intro u v
  rw [mem_dependentsOf, mem_precedentsOf, find?_precedents_set]
  show Listed (precedents.names.foldl (addDependent field) (g.clear field)) u v ↔ _
  rw [listed_foldl_add, listed_clear hg, mem_precedentsOf]
  by_cases hu : field = u
  · simp [hu, NameSet.mem_names]
  · simp [hu, Ne.symm hu]

theorem mirrored_remove (hg : g.Mirrored) (field : String) : (g.remove field).Mirrored := by
  intro u v
  rw [mem_dependentsOf, mem_precedentsOf, find?_precedents_remove]
  show Listed (g.clear field) u v ↔ _
  rw [listed_clear hg, mem_precedentsOf]
  by_cases hu : field = u
  · simp [hu]
  · simp [hu, Ne.symm hu]

/-! ## No empty lists -/

theorem tidy_dropDependent (h : Tidy dependents) :
    Tidy (dropDependent field dependents precedent) := by
  intro v names hv
  unfold dropDependent at hv
  split at hv
  next => exact h v names hv
  next old _ =>
    dsimp only at hv
    split at hv
    next =>
      rw [NameMap.find?_erase] at hv
      split at hv
      · exact absurd hv (by simp)
      · exact h v names hv
    next hleft =>
      rw [NameMap.find?_insert] at hv
      split at hv
      · obtain rfl := Option.some.inj hv
        by_contra hnone
        exact hleft (NameSet.isEmpty_eq_true.2 (not_exists.1 hnone))
      · exact h v names hv

theorem tidy_addDependent (h : Tidy dependents) :
    Tidy (addDependent field dependents precedent) := by
  intro v names hv
  unfold addDependent at hv
  rw [NameMap.find?_insert] at hv
  split at hv
  · obtain rfl := Option.some.inj hv
    exact ⟨field, NameSet.mem_insert.2 (.inl rfl)⟩
  · exact h v names hv

theorem tidy_clear (hg : Tidy g.dependents) (field : String) : Tidy (g.clear field) := by
  unfold clear
  generalize g.dependents = dependents at hg
  induction g.precedentsOf field generalizing dependents with
  | nil => exact hg
  | cons head rest ih => exact ih _ (tidy_dropDependent hg)

theorem tidy_set (hg : Tidy g.dependents) (field : String) (precedents : NameSet) :
    Tidy (g.set field precedents).dependents := by
  show Tidy (precedents.names.foldl (addDependent field) (g.clear field))
  have hclear := tidy_clear hg field
  generalize g.clear field = dependents at hclear ⊢
  induction precedents.names generalizing dependents with
  | nil => exact hclear
  | cons head rest ih => exact ih _ (tidy_addDependent hclear)

theorem tidy_remove (hg : Tidy g.dependents) (field : String) :
    Tidy (g.remove field).dependents :=
  tidy_clear hg field

/-! ## Sequences of changes -/

/-- A change of a graph. -/
inductive Change where
  | set (field : String) (precedents : NameSet)
  | remove (field : String)

def change (g : Graph) : Change → Graph
  | .set field precedents => g.set field precedents
  | .remove field => g.remove field

/-- A graph that changes made of the empty one. -/
def Made (g : Graph) : Prop := ∃ changes : List Change, g = changes.foldl change empty

namespace Made

theorem empty : Made empty := ⟨[], rfl⟩

theorem change (h : g.Made) (c : Change) : (g.change c).Made := by
  obtain ⟨changes, rfl⟩ := h
  exact ⟨changes ++ [c], by rw [List.foldl_append]; rfl⟩

/-- What the empty graph has and every change keeps, it has. -/
theorem of_changes {P : Graph → Prop} (hempty : P .empty)
    (hchange : ∀ g c, P g → P (g.change c)) (h : g.Made) : P g := by
  obtain ⟨changes, rfl⟩ := h
  generalize Graph.empty = g at hempty
  induction changes generalizing g with
  | nil => exact hempty
  | cons c rest ih => exact ih (g.change c) (hchange g c hempty)

theorem mirrored (h : g.Made) : g.Mirrored :=
  h.of_changes mirrored_empty fun _ c hg => by
    cases c with
    | set field precedents => exact mirrored_set hg field precedents
    | remove field => exact mirrored_remove hg field

theorem tidy (h : g.Made) : Tidy g.dependents :=
  h.of_changes (P := fun g => Tidy g.dependents) nofun fun _ c hg => by
    cases c with
    | set field precedents => exact tidy_set hg field precedents
    | remove field => exact tidy_remove hg field

/-- Two such graphs with the same precedents are the same. -/
theorem eq_of_precedents {g' : Graph} (h : g.Made) (h' : g'.Made)
    (hprecedents : ∀ f, g.precedents.find? f = g'.precedents.find? f) : g = g' := by
  have hreads : ∀ u v, u ∈ g.dependentsOf v ↔ u ∈ g'.dependentsOf v := by
    intro u v
    rw [h.mirrored u v, h'.mirrored u v, mem_precedentsOf, mem_precedentsOf, hprecedents]
  have hdependents : ∀ v, g.dependents.find? v = g'.dependents.find? v := by
    intro v
    have hmem := fun u => hreads u v
    simp only [mem_dependentsOf] at hmem
    cases hfind : g.dependents.find? v with
    | none =>
      cases hfind' : g'.dependents.find? v with
      | none => rfl
      | some names' =>
        obtain ⟨u, hu⟩ := h'.tidy v names' hfind'
        obtain ⟨names, hnames, -⟩ := (hmem u).2 ⟨names', hfind', hu⟩
        exact absurd (hfind.symm.trans hnames) (by simp)
    | some names =>
      obtain ⟨u, hu⟩ := h.tidy v names hfind
      obtain ⟨names', hfind', -⟩ := (hmem u).1 ⟨names, hfind, hu⟩
      rw [hfind']
      refine congrArg some (NameSet.ext_mem fun w => ?_)
      simpa [hfind, hfind'] using hmem w
  obtain ⟨precedents, dependents⟩ := g
  obtain ⟨precedents', dependents'⟩ := g'
  obtain rfl : precedents = precedents' := NameMap.ext_find? hprecedents
  obtain rfl : dependents = dependents' := NameMap.ext_find? hdependents
  rfl

end Made

/-! ## Reading and depending -/

/-- A field refers to another. -/
def Reads (g : Graph) (u v : String) : Prop := v ∈ g.precedentsOf u

/-- What is affected by seeds reads one of them, directly or through others. -/
theorem mem_affected_iff (hg : g.Mirrored) {seeds : List String} :
    u ∈ g.affected seeds ↔ ∃ s ∈ seeds, ReflTransGen g.Reads u s := by
  have hswap : Leads g.dependentsOf = Function.swap g.Reads := by
    funext v u
    exact propext (hg u v)
  rw [mem_affected, hswap]
  simp only [reflTransGen_swap]

end Formulary.Graph
