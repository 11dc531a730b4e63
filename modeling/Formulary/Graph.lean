/-
  Which fields use which: every formula field with the fields it refers to, its
  precedents, and every field referred to with the fields that do, its
  dependents.

  * `Graph.set`, `Graph.remove`: gives a field new precedents, or takes them away;
  * `Graph.reach`: the names that can be reached step by step;
  * `Graph.affected`: some names and all that depend on them, however far.
-/
import Formulary.Names.Map
import Formulary.Names.Set

namespace Formulary

/-- Precedents and dependents of fields; a field without dependents has no entry
among them. -/
structure Graph where
  precedents : NameMap NameSet
  dependents : NameMap NameSet

namespace Graph

def empty : Graph := ⟨.empty, .empty⟩

/-- The fields that a field refers to. -/
def precedentsOf (g : Graph) (field : String) : List String :=
  (g.precedents.find? field).elim [] NameSet.names

/-- The fields that refer to a field. -/
def dependentsOf (g : Graph) (field : String) : List String :=
  (g.dependents.find? field).elim [] NameSet.names

/-- The fields whose precedents are known. -/
def fields (g : Graph) : NameSet := NameSet.ofList g.precedents.names

/-- Every name that the graph mentions. -/
def names (g : Graph) : List String :=
  (g.precedents.entries ++ g.dependents.entries).flatMap fun e => e.1 :: e.2.names

/-! ## Changes -/

/-- Takes a field out of the dependents of another. -/
def dropDependent (field : String) (dependents : NameMap NameSet) (precedent : String) :
    NameMap NameSet :=
  match dependents.find? precedent with
  | none => dependents
  | some names =>
    let left := names.erase field
    if left.isEmpty then dependents.erase precedent else dependents.insert precedent left

/-- Puts a field among the dependents of another. -/
def addDependent (field : String) (dependents : NameMap NameSet) (precedent : String) :
    NameMap NameSet :=
  dependents.insert precedent (((dependents.find? precedent).getD .empty).insert field)

/-- Takes a field out of the dependents of its precedents. -/
def clear (g : Graph) (field : String) : NameMap NameSet :=
  (g.precedentsOf field).foldl (dropDependent field) g.dependents

/-- Gives a field these precedents in place of those it had. -/
def set (g : Graph) (field : String) (precedents : NameSet) : Graph where
  precedents := g.precedents.insert field precedents
  dependents := precedents.names.foldl (addDependent field) (g.clear field)

/-- Takes the precedents of a field away.  Fields that refer to it still do. -/
def remove (g : Graph) (field : String) : Graph where
  precedents := g.precedents.erase field
  dependents := g.clear field

/-! ## Reach -/

/-- The names found, and those that `next` leads to from the names to do, step by
step, as far as they are free. -/
def reach (next : String → List String) (free todo : List String) (found : NameSet) : NameSet :=
  match todo with
  | [] => found
  | name :: rest =>
    if name ∈ free then reach next (free.erase name) (next name ++ rest) (found.insert name)
    else reach next free rest found
termination_by (free.length, todo.length)
decreasing_by
  · rename_i h
    have := List.length_erase_of_mem h
    have := List.length_pos_of_mem h
    exact Prod.Lex.left _ _ (by omega)
  · exact Prod.Lex.right _ (by simp)

/-- Some names and every field that depends on one of them, directly or through
others. -/
def affected (g : Graph) (seeds : List String) : NameSet :=
  reach g.dependentsOf (seeds ++ g.names) seeds .empty

end Graph
end Formulary
