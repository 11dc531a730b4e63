/-
  Reading values off the nodes of a YAML text.

  Aliases are followed; a text that follows them too often, measured by its size,
  is refused, and so are values that are nested too deeply.

  * `Decode.value`: any value;
  * `Decode.record`, `Decode.items`, `Decode.text`, `Decode.natural`,
    `Decode.word`, `Decode.optional`: values of known forms;
  * `Yaml.decode?`: what a reader makes of a whole text;
  * `Yaml.ofText?`, `Value.ofYaml`: the value of a text.
-/
import Formulary.Yaml.Lexeme.Lexer
import Formulary.Yaml.Node.Compose
import Formulary.Yaml.Word

namespace Formulary

/-- Equality of keys: a number that is none equals itself, an integer no other
number, and the order of entries does not count. -/
def Yaml.sameNumber (x y : Number) : Bool := (x.isNaN && y.isNaN) || x.eq y

mutual

@[inherit_doc Yaml.sameNumber]
def Yaml.same : Yaml → Yaml → Bool
  | .null, .null => true
  | .boolean a, .boolean b => a == b
  | .integer n, .integer m => n == m
  | .float x, .float y => Yaml.sameNumber x y
  | .text s, .text t => s == t
  | .sequence items, .sequence others => Yaml.sameItems items others
  | .mapping entries, .mapping others =>
    entries.length == others.length && Yaml.sameEntries entries others
  | .tagged tag content, .tagged tag' content' => tag == tag' && Yaml.same content content'
  | _, _ => false

def Yaml.sameItems : List Yaml → List Yaml → Bool
  | [], [] => true
  | item :: rest, other :: others => Yaml.same item other && Yaml.sameItems rest others
  | _, _ => false

/-- Whether all entries are among others. -/
def Yaml.sameEntries : List (Yaml × Yaml) → List (Yaml × Yaml) → Bool
  | [], _ => true
  | (key, content) :: rest, others =>
    others.any (fun (key', content') => Yaml.same key key' && Yaml.same content content')
      && Yaml.sameEntries rest others

end

/-- Reads off the nodes of a text, with a number of aliases that may be followed. -/
abbrev Decode := ReaderT Yaml.Tree (StateT Nat Option)

namespace Decode
open Yaml (Node Style Tree)

/-- The node itself or the one that it is an alias of. -/
def follow (node : Node) : Decode Node := do
  match node with
  | .aliasOf id =>
    match ← get with
    | 0 => failure
    | left + 1 =>
      set left
      match (← read).target? id with
      | some target => return target
      | none => failure
  | node => return node

/-! ## Any value -/

/-- The name of a tag that a text makes up.  An exclamation mark comes first, which
is the name where it stands alone; bytes that are no characters are no name. -/
def localName? (tag? : Option String) : Option String :=
  tag?.bind fun tag => match tag.toList with
    | ['!'] => some "!"
    | '!' :: name => if name.contains '\x00' then none else some (String.ofList name)
    | _ => none

/-- An exclamation mark in front of the name of a tag does not belong to it. -/
def bareTag (name : String) : String :=
  match name.toList with
  | '!' :: c :: rest => String.ofList (c :: rest)
  | _ => name

/-- The entries of a mapping, whose keys differ. -/
def distinctEntries (part : Node → Decode Yaml) (entries : List (Node × Node)) :
    Decode (List (Yaml × Yaml)) :=
  entries.foldlM (fun found (k, c) => do
    let key ← part k
    if found.any fun (other, _) => other.same key then failure
    else return found ++ [(key, ← part c)]) []

/-- A value apart from the name of its tag. -/
def content (part? : Option (Node → Decode Yaml)) (node : Node) : Decode Yaml :=
  match node with
  | .scalar tag? style s =>
    match Yaml.ofScalar? tag? style s with
    | some y => return y
    | none => failure
  | .sequence _ items =>
    match part? with
    | some part => .sequence <$> items.mapM part
    | none => failure
  | .mapping _ entries =>
    match part? with
    | some part => .mapping <$> distinctEntries part entries
    | none => failure
  | .aliasOf _ => failure

/-- A value.  Without a reader of parts, no sequence or mapping is one. -/
def valueWith (part? : Option (Node → Decode Yaml)) (node : Node) : Decode Yaml := do
  let target ← follow node
  match localName? target.tag? with
  | some name => .tagged (bareTag name) <$> content part? target
  | none => content part? target

/-- A value of sequences and mappings that are nested up to some depth. -/
def value : Nat → Node → Decode Yaml
  | 0 => valueWith none
  | depth + 1 => valueWith (some (value depth))

/-- The deepest nesting of values in a text. -/
def maxDepth : Nat := 128

/-! ## Known forms -/

/-- Whether nothing is written in a place. -/
def isAbsent (node : Node) : Bool :=
  match node with
  | .scalar _ .plain "" => true
  | _ => false

/-- The text of a scalar, whatever it looks like. -/
def text (node : Node) : Decode String := do
  match ← follow node with
  | .scalar _ _ s => return s
  | _ => failure

/-- The items of a sequence; where nothing is written there are none. -/
def items (node : Node) : Decode (List Node) := do
  match ← follow node with
  | .sequence _ items => return items
  | node => if isAbsent node then return [] else failure

/-- The entries of a mapping by the texts of their keys; where nothing is written
there are none. -/
def record (node : Node) : Decode (List (String × Node)) := do
  match ← follow node with
  | .mapping _ entries => entries.mapM fun (key, content) => return (← text key, content)
  | node => if isAbsent node then return [] else failure

/-- The entry of a name, which must not be there twice. -/
def entry? (entries : List (String × Node)) (name : String) : Decode (Option Node) :=
  match entries.filter fun (key, _) => key == name with
  | [] => return none
  | [(_, node)] => return some node
  | _ => failure

/-- What is made of the entry of a name, if there is one. -/
def entryOr {α : Type} (entries : List (String × Node)) (name : String) (default : α)
    (decode : Node → Decode α) : Decode α := do
  match ← entry? entries name with
  | some node => decode node
  | none => return default

/-- What is made of the entry of a name, which has to be there. -/
def entry {α : Type} (entries : List (String × Node)) (name : String)
    (decode : Node → Decode α) : Decode α := do
  match ← entry? entries name with
  | some node => decode node
  | none => failure

/-- Nothing where null is written, and else what is there. -/
def optional {α : Type} (decode : Node → Decode α) (node : Node) : Decode (Option α) := do
  let node ← follow node
  match node with
  | .scalar tag? .plain s =>
    match tag? with
    | none =>
      if s.isEmpty || Yaml.isNullWord s then return none else some <$> decode node
    | some tag =>
      if tag = Yaml.coreTag ++ "null" then
        if Yaml.isNullWord s then return none else failure
      else some <$> decode node
  | _ => some <$> decode node

/-- A number of 64 bits without a minus sign.  Quotes make a text of it; lines below
a bar are a number only with a tag that says so. -/
def natural (node : Node) : Decode Nat := do
  match ← follow node with
  | .scalar tag? style s =>
    let counts := style = .plain || (style = .literal && tag? = some (Yaml.coreTag ++ "int"))
    match (Yaml.naturalOf? s).filter fun n => counts && n < 2 ^ (64 : Nat) with
    | some n => return n
    | none => failure
  | _ => failure

/-- One of some words: the text of a scalar, or the name of its tag, beside which
nothing else stands then. -/
def word {α : Type} (words : List (String × α)) (node : Node) : Decode α := do
  let node ← follow node
  let name ← match localName? node.tag?, node with
    | some name, .scalar _ .plain s =>
      if s.isEmpty || Yaml.isNullWord s then pure name else failure
    | none, .scalar _ _ s => pure s
    | _, _ => failure
  match words.lookup name with
  | some a => return a
  | none => failure

end Decode

namespace Yaml

/-- What a reader makes of the node around all others, or of an empty text. -/
def decode? {α : Type} (decode : Node → Decode α) (whenEmpty : α) (text : String) : Option α := do
  let tree ← Tree.ofLexemes? (← lexemes? text)
  match tree.root? with
  | none => some whenEmpty
  | some root => ((decode root).run tree).run' (100 * tree.size)

/-- The value of a text. -/
def ofText? (text : String) : Option Yaml :=
  decode? (Decode.value Decode.maxDepth) .null text

end Yaml

/-- The value that a text stands for; a text that stands for none is a value itself. -/
def Value.ofYamlText (text : String) : Value :=
  match (Yaml.ofText? text).map (Yaml.toValue .other) with
  | some (.ok v) => v
  | _ => .text text

end Formulary
