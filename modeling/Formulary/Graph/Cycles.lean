/-
  Circles of references.

  * `Graph.cycles`: the circles that a depth-first search comes upon, each as the
    path from a field back to itself.
-/
import Formulary.Graph

namespace Formulary.Graph

/-- The part of a path from a field on, and back to the field. -/
def circle (path : List String) (field : String) : List String :=
  path.dropWhile (· != field) ++ [field]

/-- What is left to do in the search: to enter a field, or to leave the last one
of the path. -/
inductive Visit where
  | enter (field : String)
  | leave
  deriving DecidableEq, Repr

/-- The search from a path on.  A field that is entered again while it is on the
path closes a circle; one that was left before is passed by.  The fields that
were never entered are free. -/
def search (next : String → List String) (free path : List String) : List Visit →
    List (List String)
  | [] => []
  | .leave :: rest => search next free path.dropLast rest
  | .enter field :: rest =>
    if field ∈ path then circle path field :: search next free path rest
    else if field ∈ free then
      search next (free.erase field) (path ++ [field])
        ((next field).map .enter ++ .leave :: rest)
    else search next free path rest
termination_by todo => (free.length, todo.length)
decreasing_by
  · exact Prod.Lex.right _ (by simp)
  · exact Prod.Lex.right _ (by simp)
  · rename_i h
    have := List.length_erase_of_mem h
    have := List.length_pos_of_mem h
    exact Prod.Lex.left _ _ (by omega)
  · exact Prod.Lex.right _ (by simp)

/-- The circles found when the search starts from each field in turn. -/
def cycles (g : Graph) : List (List String) :=
  search g.precedentsOf g.names.eraseDups [] (g.fields.names.map .enter)

end Formulary.Graph
