/-
  Maps from names, listed in the order of their names.

  * `NameMap`: entries sorted by name, each name once;
  * `NameMap.find?_insert`, `NameMap.find?_erase`: what can be found afterwards;
  * `NameMap.find?_foldl_insert`: what can be found when entries of different names are
    put in one after the other.
-/
import Formulary.Names.Entries

namespace Formulary

/-- A map from names to values, sorted by name. -/
structure NameMap (α : Type) where
  entries : List (String × α)
  sorted : Entries.Sorted entries

namespace NameMap

variable {α : Type}

def empty : NameMap α := ⟨[], List.Pairwise.nil⟩

instance : Inhabited (NameMap α) := ⟨empty⟩

def find? (m : NameMap α) (name : String) : Option α := Entries.find? name m.entries

def contains (m : NameMap α) (name : String) : Bool := (m.find? name).isSome

def insert (m : NameMap α) (name : String) (value : α) : NameMap α :=
  ⟨Entries.insert name value m.entries, Entries.sorted_insert name value m.sorted⟩

def erase (m : NameMap α) (name : String) : NameMap α :=
  ⟨Entries.erase name m.entries, Entries.sorted_erase name m.sorted⟩

/-- The names, in order. -/
def names (m : NameMap α) : List String := m.entries.map Prod.fst

/-- The entries put in one after the other: of equal names the last one counts. -/
def ofList (entries : List (String × α)) : NameMap α :=
  entries.foldl (fun m e => m.insert e.1 e.2) empty

/-- This map with the entries of another put in. -/
def union (m other : NameMap α) : NameMap α :=
  other.entries.foldl (fun m e => m.insert e.1 e.2) m

@[simp] theorem find?_empty (name : String) : (empty : NameMap α).find? name = none := rfl

theorem find?_insert (m : NameMap α) (name other : String) (value : α) :
    (m.insert name value).find? other = if name = other then some value else m.find? other :=
  Entries.find?_insert ..

theorem find?_erase (m : NameMap α) (name other : String) :
    (m.erase name).find? other = if name = other then none else m.find? other :=
  Entries.find?_erase ..

theorem find?_foldl_insert {m : NameMap α} {entries : List (String × α)} {name : String}
    {value : α} (h : (entries.map Prod.fst).Nodup) :
    (entries.foldl (fun m e => m.insert e.1 e.2) m).find? name = some value ↔
      (name, value) ∈ entries ∨ name ∉ entries.map Prod.fst ∧ m.find? name = some value := by
  induction entries generalizing m with
  | nil => simp
  | cons e rest ih =>
    obtain ⟨head, old⟩ := e
    obtain ⟨hhead, hrest⟩ := List.nodup_cons.1 h
    rw [List.foldl_cons, ih hrest, find?_insert, List.map_cons, List.mem_cons, List.mem_cons]
    by_cases hname : head = name
    · subst hname
      have hnotMem : (head, value) ∉ rest := fun hmem => hhead (List.mem_map.2 ⟨_, hmem, rfl⟩)
      have hnew : head ∉ rest.map Prod.fst := hhead
      simp [hnotMem, hnew, eq_comm]
    · simp [hname, Ne.symm hname]

end NameMap
end Formulary
