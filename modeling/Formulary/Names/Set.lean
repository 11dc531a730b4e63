/-
  Sets of names, listed in order.

  * `NameSet`: names that increase along the list;
  * `NameSet.mem_insert`, `NameSet.mem_erase`, `NameSet.mem_ofList`: their
    members.
-/
import Formulary.Names.Entries

namespace Formulary

/-- Puts a name into an increasing list of names. -/
def insertName (name : String) : List String → List String
  | [] => [name]
  | other :: rest =>
    if name < other then name :: other :: rest
    else if other < name then other :: insertName name rest
    else other :: rest

theorem mem_insertName {name other : String} {names : List String} :
    other ∈ insertName name names ↔ other = name ∨ other ∈ names := by
  induction names with
  | nil => simp [insertName]
  | cons head rest ih =>
    simp only [insertName]
    split
    · simp
    · split
      · simp only [List.mem_cons, ih, or_left_comm]
      next h h' => obtain rfl := Entries.eq_of_not_lt h h'; simp

theorem sorted_insertName (name : String) {names : List String} (h : names.Pairwise (· < ·)) :
    (insertName name names).Pairwise (· < ·) := by
  induction names with
  | nil => simp [insertName]
  | cons head rest ih =>
    obtain ⟨hd, hr⟩ := List.pairwise_cons.1 h
    simp only [insertName]
    split
    next hlt =>
      refine List.pairwise_cons.2 ⟨fun other ho => ?_, h⟩
      rcases List.mem_cons.1 ho with rfl | ho
      · exact hlt
      · exact String.lt_trans hlt (hd other ho)
    next hlt =>
      split
      next hgt =>
        refine List.pairwise_cons.2 ⟨fun other ho => ?_, ih hr⟩
        rcases mem_insertName.1 ho with rfl | ho
        · exact hgt
        · exact hd other ho
      · exact h

/-- A set of names, sorted. -/
structure NameSet where
  names : List String
  sorted : names.Pairwise (· < ·)
  deriving DecidableEq

namespace NameSet

def empty : NameSet := ⟨[], List.Pairwise.nil⟩

instance : Inhabited NameSet := ⟨empty⟩

instance : Membership String NameSet := ⟨fun s name => name ∈ s.names⟩

instance (name : String) (s : NameSet) : Decidable (name ∈ s) :=
  inferInstanceAs (Decidable (name ∈ s.names))

def insert (s : NameSet) (name : String) : NameSet :=
  ⟨insertName name s.names, sorted_insertName name s.sorted⟩

def erase (s : NameSet) (name : String) : NameSet :=
  ⟨s.names.filter (· != name), List.Pairwise.filter _ s.sorted⟩

def ofList (names : List String) : NameSet := names.foldl insert empty

def isEmpty (s : NameSet) : Bool := s.names.isEmpty

@[simp] theorem not_mem_empty (name : String) : ¬ name ∈ empty := List.not_mem_nil

@[simp] theorem mem_insert {s : NameSet} {name other : String} :
    other ∈ s.insert name ↔ other = name ∨ other ∈ s :=
  mem_insertName

@[simp] theorem mem_erase {s : NameSet} {name other : String} :
    other ∈ s.erase name ↔ other ∈ s ∧ other ≠ name := by
  show other ∈ s.names.filter (· != name) ↔ other ∈ s.names ∧ other ≠ name
  simp

theorem mem_foldl_insert {s : NameSet} {names : List String} {other : String} :
    other ∈ names.foldl insert s ↔ other ∈ s ∨ other ∈ names := by
  induction names generalizing s with
  | nil => simp
  | cons head rest ih => simp only [List.foldl_cons, ih, mem_insert, List.mem_cons]; grind

@[simp] theorem mem_ofList {names : List String} {other : String} :
    other ∈ ofList names ↔ other ∈ names := by
  simp [ofList, mem_foldl_insert]

end NameSet
end Formulary
