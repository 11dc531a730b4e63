/-
  The order of computation: groups of fields, each after those that it refers to.

  Two fields belong together if each can be reached from the other, so a group of
  more than one field is a knot of circles.

  * `Graph.finishOrder`: the order in which a depth-first search leaves fields;
  * `Graph.components`: the groups, taken in the reverse of that order along the
    direction from a field to those that refer to it;
  * `Graph.isCyclic`: whether the fields of a group refer to each other.
-/
import Formulary.Graph

namespace Formulary.Graph

/-- The members of a set that refer to a field, the last in order first. -/
def usersWithin (g : Graph) (within : NameSet) (field : String) : List String :=
  (within.names.filter fun user => field ∈ g.precedentsOf user).reverse

/-- The members of a set that a field refers to. -/
def usedWithin (g : Graph) (within : NameSet) (field : String) : List String :=
  (g.precedentsOf field).filter fun used => used ∈ within

/-- What is left to do in the search: to enter a field, or to leave it. -/
inductive Mark where
  | enter (field : String)
  | leave (field : String)
  deriving DecidableEq, Repr

/-- The fields in the order in which the search leaves them; only free fields are
entered. -/
def finishOrder (next : String → List String) (free : List String) : List Mark → List String
  | [] => []
  | .leave field :: rest => field :: finishOrder next free rest
  | .enter field :: rest =>
    if field ∈ free then
      finishOrder next (free.erase field) ((next field).map .enter ++ .leave field :: rest)
    else finishOrder next free rest
termination_by todo => (free.length, todo.length)
decreasing_by
  · exact Prod.Lex.right _ (by simp)
  · rename_i h
    have := List.length_erase_of_mem h
    have := List.length_pos_of_mem h
    exact Prod.Lex.left _ _ (by omega)
  · exact Prod.Lex.right _ (by simp)

/-- The members of a set that can be reached from a field and from which it can be
reached. -/
def component (g : Graph) (within : NameSet) (field : String) : List String :=
  let users := reach (g.usersWithin within) within.names [field] .empty
  let used := reach (g.usedWithin within) within.names [field] .empty
  users.names.filter fun name => name ∈ used

/-- The groups of fields in the order in which their first members come; a field
of an earlier group is passed by. -/
def grouped (group : String → List String) (taken : List String) : List String →
    List (List String)
  | [] => []
  | field :: rest =>
    if field ∈ taken then grouped group taken rest
    else group field :: grouped group (group field ++ taken) rest

/-- The members of a set in groups, each after the groups that it refers to. -/
def components (g : Graph) (within : NameSet) : List (List String) :=
  let finished := finishOrder (g.usersWithin within) within.names (within.names.map .enter)
  grouped (g.component within) [] finished.reverse

/-- Whether the fields of a group refer to each other in a circle. -/
def isCyclic (g : Graph) : List String → Bool
  | [field] => field ∈ g.precedentsOf field
  | group => 1 < group.length

end Formulary.Graph
