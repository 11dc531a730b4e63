/-
  Names of maps and sets: what is listed is what can be found.

  * `NameMap.mem_names`: the listed names are those with a value;
  * `NameMap.find?_foldl_erase`: what is left when names are taken out;
  * `NameMap.isSome_find?_union`, `NameMap.find?_map`: what is in a union, and in a map with
    other values;
  * `NameSet.nodup`, `NameSet.mem_names`: no name is listed twice;
  * `NameMap.ext_find?`, `NameSet.ext_mem`: maps in which the same can be found, and sets of
    the same names, are equal.
-/
import Formulary.Names.Map
import Formulary.Names.Set
import Mathlib.Data.List.Sort

namespace Formulary

namespace Entries

variable {α : Type}

theorem find?_isSome {name : String} {entries : List (String × α)} :
    (find? name entries).isSome ↔ name ∈ entries.map Prod.fst := by
  induction entries with
  | nil => simp
  | cons e rest ih =>
    obtain ⟨head, value⟩ := e
    rw [find?_cons, List.map_cons, List.mem_cons, ← ih]
    split
    next h => simp [h]
    next h => simp [Ne.symm h]

theorem mem_of_find? {name : String} {value : α} {entries : List (String × α)}
    (h : find? name entries = some value) : (name, value) ∈ entries := by
  obtain ⟨⟨found, value'⟩, he, rfl⟩ := Option.map_eq_some_iff.1 h
  have hn := List.find?_some he
  simp only [beq_iff_eq] at hn
  exact hn ▸ List.mem_of_find?_eq_some he

theorem find?_of_mem {name : String} {value : α} {entries : List (String × α)}
    (hsorted : Sorted entries) (h : (name, value) ∈ entries) :
    find? name entries = some value := by
  induction entries with
  | nil => exact absurd h List.not_mem_nil
  | cons e rest ih =>
    obtain ⟨hhead, hrest⟩ := List.pairwise_cons.1 hsorted
    rw [find?_cons]
    rcases List.mem_cons.1 h with rfl | h
    · rw [if_pos rfl]
    · have hne : e.1 ≠ name := by
        rintro rfl
        exact String.lt_irrefl _ (hhead (e.1, value) h)
      rw [if_neg hne, ih hrest h]

/-- Sorted entries in which the same can be found are the same. -/
theorem eq_of_find? {entries entries' : List (String × α)} (hsorted : Sorted entries)
    (hsorted' : Sorted entries') (h : ∀ name, find? name entries = find? name entries') :
    entries = entries' := by
  have hmem : ∀ e, e ∈ entries ↔ e ∈ entries' := fun e =>
    ⟨fun he => mem_of_find? (h e.1 ▸ find?_of_mem hsorted he),
      fun he => mem_of_find? ((h e.1).symm ▸ find?_of_mem hsorted' he)⟩
  have : Std.Irrefl fun e f : String × α => e.1 < f.1 := ⟨fun e => String.lt_irrefl e.1⟩
  have : Std.Asymm fun e f : String × α => e.1 < f.1 := ⟨fun e f => String.lt_asymm⟩
  exact hsorted.eq_of_mem_iff hsorted' hmem

end Entries

namespace NameMap

variable {α : Type}

theorem mem_names {m : NameMap α} {name : String} : name ∈ m.names ↔ (m.find? name).isSome :=
  Entries.find?_isSome.symm

theorem contains_eq_true {m : NameMap α} {name : String} :
    m.contains name = true ↔ ∃ value, m.find? name = some value :=
  Option.isSome_iff_exists

theorem mem_of_find? {m : NameMap α} {name : String} {value : α}
    (h : m.find? name = some value) : (name, value) ∈ m.entries :=
  Entries.mem_of_find? h

/-- A map is what can be found in it. -/
theorem ext_find? {m m' : NameMap α} (h : ∀ name, m.find? name = m'.find? name) : m = m' := by
  obtain ⟨entries, hsorted⟩ := m
  obtain ⟨entries', hsorted'⟩ := m'
  obtain rfl := Entries.eq_of_find? hsorted hsorted' h
  rfl

theorem find?_foldl_erase (m : NameMap α) (names : List String) (name : String) :
    (names.foldl erase m).find? name = if name ∈ names then none else m.find? name := by
  induction names generalizing m with
  | nil => simp
  | cons head rest ih =>
    rw [List.foldl_cons, ih, find?_erase]
    by_cases h : head = name
    · simp [h]
    · simp [h, Ne.symm h]

theorem isSome_find?_union {m other : NameMap α} {name : String} :
    ((m.union other).find? name).isSome ↔ (m.find? name).isSome ∨ (other.find? name).isSome := by
  show ((other.entries.foldl (fun m e => m.insert e.1 e.2) m).find? name).isSome ↔
    _ ∨ (Entries.find? name other.entries).isSome
  induction other.entries generalizing m with
  | nil => simp
  | cons e rest ih =>
    rw [List.foldl_cons, ih, find?_insert, Entries.find?_cons]
    by_cases h : e.1 = name
    · simp [h]
    · simp [h]

/-- A map with other values under the same names. -/
def map {β : Type} (f : String → α → β) (m : NameMap α) : NameMap β where
  entries := m.entries.map fun e => (e.1, f e.1 e.2)
  sorted := List.pairwise_map.2 (m.sorted.imp fun h => h)

theorem find?_map {β : Type} (f : String → α → β) (m : NameMap α) (name : String) :
    (m.map f).find? name = (m.find? name).map (f name) := by
  show Entries.find? name (m.entries.map _) = (Entries.find? name m.entries).map (f name)
  induction m.entries with
  | nil => rfl
  | cons e rest ih =>
    rw [List.map_cons, Entries.find?_cons, Entries.find?_cons, ih]
    by_cases h : e.1 = name
    · simp [h]
    · simp [h]

end NameMap

namespace NameSet

theorem mem_names {s : NameSet} {name : String} : name ∈ s.names ↔ name ∈ s := Iff.rfl

theorem nodup (s : NameSet) : s.names.Nodup := by
  refine List.Pairwise.imp (fun {name other} h => ?_) s.sorted
  rintro rfl
  exact String.lt_irrefl _ h

/-- A set is its members. -/
theorem ext_mem {s t : NameSet} (h : ∀ name, name ∈ s ↔ name ∈ t) : s = t := by
  obtain ⟨names, hsorted⟩ := s
  obtain ⟨names', hsorted'⟩ := t
  obtain rfl : names = names' := hsorted.eq_of_mem_iff hsorted' h
  rfl

theorem isEmpty_eq_true {s : NameSet} : s.isEmpty = true ↔ ∀ name, name ∉ s := by
  show s.names.isEmpty = true ↔ ∀ name, name ∉ s.names
  rw [List.isEmpty_iff, List.eq_nil_iff_forall_not_mem]

end NameSet
end Formulary
