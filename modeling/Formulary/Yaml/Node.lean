/-
  The nodes of a YAML text.

  * `Yaml.Node`: scalars, sequences and mappings as they are written, and aliases
    of other nodes;
  * `Yaml.Tree`: the nodes of a text, where the target of an alias can be looked
    up.
-/
import Formulary.Yaml.Scalar

namespace Formulary.Yaml

/-- A node of a text.  Its tag is written in full. -/
inductive Node where
  | scalar (tag? : Option String) (style : Style) (text : String)
  | sequence (tag? : Option String) (items : List Node)
  | mapping (tag? : Option String) (entries : List (Node × Node))
  /-- The same node as another one with an anchor, which has this number. -/
  | aliasOf (id : Nat)

namespace Node

/-- What stands where a node is missing. -/
def empty : Node := scalar none .plain ""

def tag? : Node → Option String
  | scalar tag? _ _ | sequence tag? _ | mapping tag? _ => tag?
  | aliasOf _ => none

mutual

/-- The number of places where a node starts or where a sequence or mapping ends. -/
def size : Node → Nat
  | scalar _ _ _ | aliasOf _ => 1
  | sequence _ items => sizeOfItems items + 2
  | mapping _ entries => sizeOfEntries entries + 2

def sizeOfItems : List Node → Nat
  | [] => 0
  | item :: rest => size item + sizeOfItems rest

def sizeOfEntries : List (Node × Node) → Nat
  | [] => 0
  | (key, content) :: rest => size key + size content + sizeOfEntries rest

end

end Node

/-- The nodes of a text.  Each node with an anchor has a place among them, and
each number of an anchor stands for such a place. -/
structure Tree where
  /-- The node around all others; an empty text has none. -/
  root? : Option Node
  /-- The places that the numbers of anchors stand for, later ones first. -/
  places : List (Nat × Nat)
  /-- The nodes with an anchor by place. -/
  marked : List (Nat × Node)

/-- The node that an alias stands for. -/
def Tree.target? (tree : Tree) (id : Nat) : Option Node :=
  (tree.places.lookup id).bind fun place => tree.marked.lookup place

/-- The number of nodes, sequences and mappings counted twice. -/
def Tree.size (tree : Tree) : Nat := tree.root?.elim 1 Node.size

end Formulary.Yaml
