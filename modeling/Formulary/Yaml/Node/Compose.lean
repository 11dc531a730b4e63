/-
  Putting the nodes of a YAML text together from its lexemes.

      document   = directive* "---" [node] | node
      node       = alias | [anchor] [tag] (scalar | collection | nothing)
      collection = a block of items or entries up to its end, or items or entries
                   between brackets or braces with commas

  Where a node may be missing, an empty scalar stands for it.

  * `Yaml.Tree.ofLexemes?`: the nodes of the one document of a text.
-/
import Formulary.Names.Entries
import Formulary.Yaml.Lexeme
import Formulary.Yaml.Node

namespace Formulary.Yaml

/-- What is left to read, and what is known from what was read. -/
structure Composer where
  rest : List Lexeme
  /-- The shorthands of tags. -/
  handles : List (String × String)
  /-- The numbers of the anchors so far. -/
  ids : List (String × Nat)
  places : List (Nat × Nat)
  marked : List (Nat × Node)

abbrev Compose := StateT Composer Option

namespace Compose

/-! ## Lexemes -/

def rest : Compose (List Lexeme) := Composer.rest <$> get

/-- Passes the next lexeme. -/
def skip : Compose Unit := modify fun composer => { composer with rest := composer.rest.tail }

/-- Passes a lexeme that has to be the next one. -/
def expect (lexeme : Lexeme) : Compose Unit := do
  match ← rest with
  | next :: _ => if next = lexeme then skip else failure
  | [] => failure

/-- Passes a lexeme if it is the next one. -/
def skipIf (lexeme : Lexeme) : Compose Bool := do
  match ← rest with
  | next :: _ => if next = lexeme then do skip; return true else return false
  | [] => return false

/-- A node, or an empty one before a lexeme that ends its place. -/
def orEmpty (ends : List Lexeme) (node : Compose Node) : Compose Node := do
  match ← rest with
  | next :: _ => if ends.contains next then return .empty else node
  | [] => node

/-! ## Anchors and tags -/

/-- The name of an anchor and a tag in front of a node, in either order. -/
def properties : Compose (Option String × Option (String × String)) := do
  match ← rest with
  | .anchor name :: .tag handle suffix :: _ | .tag handle suffix :: .anchor name :: _ =>
    skip
    skip
    return (some name, some (handle, suffix))
  | .anchor name :: _ => skip; return (some name, none)
  | .tag handle suffix :: _ => skip; return (none, some (handle, suffix))
  | _ => return (none, none)

/-- A tag in full. -/
def fullTag (handle suffix : String) : Compose String := do
  if handle.isEmpty then return suffix
  else match (← get).handles.lookup handle with
    | some start => return start ++ suffix
    | none => failure

/-- Gives an anchor a number, which is that of the names before it, and its node a
place. -/
def openAnchor (name : String) : Compose Nat := do
  let composer ← get
  let id := composer.ids.length
  let place := composer.places.length
  set { composer with
    ids := Entries.insert name id composer.ids
    places := (id, place) :: composer.places }
  return place

/-- Keeps a node with an anchor. -/
def closeAnchor (place? : Option Nat) (node : Node) : Compose Unit :=
  match place? with
  | some place => modify fun composer =>
      { composer with marked := (place, node) :: composer.marked }
  | none => return ()

/-- The number of an anchor that was read already. -/
def aliasId (name : String) : Compose Nat := do
  match (← get).ids.lookup name with
  | some id => return id
  | none => failure

/-! ## Blocks -/

/-- The items of a block up to its end. -/
def blockItems (node : Compose Node) : Nat → Compose (List Node)
  | 0 => failure
  | room + 1 => do
    if ← skipIf .blockEnd then return []
    else
      expect .dash
      let item ← orEmpty [.dash, .blockEnd] node
      return item :: (← blockItems node room)

/-- The items at the indent of the mapping around them. -/
def sameIndentItems (node : Compose Node) : Nat → Compose (List Node)
  | 0 => failure
  | room + 1 => do
    if ← skipIf .dash then
      let item ← orEmpty [.dash, .key, .value, .blockEnd] node
      return item :: (← sameIndentItems node room)
    else return []

/-- The entries of a block up to its end. -/
def blockEntries (node : Compose Node) : Nat → Compose (List (Node × Node))
  | 0 => failure
  | room + 1 => do
    if ← skipIf .blockEnd then return []
    else
      expect .key
      let part := orEmpty [.key, .value, .blockEnd] node
      let key ← part
      let content ← if ← skipIf .value then part else pure .empty
      return (key, content) :: (← blockEntries node room)

/-! ## Brackets and braces -/

/-- The pair that an item with a colon is.  An item with a mark but no text is an
empty key, and the lexeme that shows this is passed. -/
def pair (node : Compose Node) : Compose Node := do
  let key ← match ← rest with
    | .value :: _ | .comma :: _ | .closeBracket :: _ => do skip; pure .empty
    | _ => node
  let content ←
    if ← skipIf .value then orEmpty [.comma, .closeBracket] node else pure .empty
  return .mapping none [(key, content)]

/-- The items up to a bracket; all but the first one after a comma, which may also
be the last thing. -/
def bracketItems (node : Compose Node) (first : Bool) : Nat → Compose (List Node)
  | 0 => failure
  | room + 1 => do
    if ← skipIf .closeBracket then return []
    else
      unless first do expect .comma
      if ← skipIf .closeBracket then return []
      else
        let item ← if ← skipIf .key then pair node else node
        return item :: (← bracketItems node false room)

/-- The entries up to a brace, with commas as between items. -/
def braceEntries (node : Compose Node) (first : Bool) : Nat → Compose (List (Node × Node))
  | 0 => failure
  | room + 1 => do
    if ← skipIf .closeBrace then return []
    else
      unless first do expect .comma
      if ← skipIf .closeBrace then return []
      else
        let entry ←
          if ← skipIf .key then do
            let key ← orEmpty [.value, .comma, .closeBrace] node
            let content ←
              if ← skipIf .value then orEmpty [.comma, .closeBrace] node else pure .empty
            pure (key, content)
          else do pure (← node, .empty)
        return entry :: (← braceEntries node false room)

/-! ## Nodes -/

/-- A node without what stands in front of it. -/
def content (room : Nat) (block sameIndent : Bool) (inBlock inEntry inFlow : Compose Node)
    (marked : Bool) (tag? : Option String) : Compose Node := do
  match ← rest with
  | .dash :: _ =>
    if sameIndent then .sequence tag? <$> sameIndentItems inBlock room
    else missing
  | .scalar style s :: _ => do
    skip
    return .scalar tag? style s
  | .openBracket :: _ => do skip; .sequence tag? <$> bracketItems inFlow true room
  | .openBrace :: _ => do skip; .mapping tag? <$> braceEntries inFlow true room
  | .blockSequence :: _ =>
    if block then do skip; .sequence tag? <$> blockItems inBlock room
    else missing
  | .blockMapping :: _ =>
    if block then do skip; .mapping tag? <$> blockEntries inEntry room
    else missing
  | _ => missing
where
  /-- An anchor or a tag may stand alone. -/
  missing : Compose Node := if marked then return .scalar tag? .plain "" else failure

/-- A node: where blocks may start, and where items may stand at the indent of the
mapping around them.  Nodes are nested at most as deep as there are lexemes. -/
def node : Nat → Bool → Bool → Compose Node
  | 0, _, _ => failure
  | room + 1, block, sameIndent => do
    match ← rest with
    | .aliasOf name :: _ => do
      skip
      return .aliasOf (← aliasId name)
    | _ =>
      let (name?, tag?) ← properties
      let tag? ← tag?.mapM fun (handle, suffix) => fullTag handle suffix
      let place? ← name?.mapM openAnchor
      let found ← content room block sameIndent (node room true false) (node room true true)
        (node room false false) (name?.isSome || tag?.isSome) tag?
      closeAnchor place? found
      return found

/-! ## Documents -/

/-- The directives in front of a document: one version at most, and no shorthand
twice. -/
def directives (version : Bool) (handles : List (String × String)) : List Lexeme →
    Option (List (String × String) × List Lexeme)
  | .version major minor :: rest =>
    if version || major ≠ 1 || (minor ≠ 1 && minor ≠ 2) then none
    else directives true handles rest
  | .handle name start :: rest =>
    if (handles.lookup name).isSome then none
    else directives version ((name, start) :: handles) rest
  | rest => some (handles, rest)

/-- What starts or ends a document. -/
def isOutside : Lexeme → Bool
  | .version _ _ | .handle _ _ | .documentStart | .documentEnd => true
  | _ => false

/-- The node of a document with a marked start. -/
def markedDocument (room : Nat) : Compose Node := do
  let composer ← get
  let (handles, rest') ← directives false [] composer.rest
  set { composer with rest := rest', handles := handles ++ standardHandles }
  expect .documentStart
  match ← rest with
  | [] => return .empty
  | next :: _ => if isOutside next then return .empty else node room true false

/-- The node of a document; an empty text has none. -/
def document (room : Nat) : Compose (Option Node) := do
  match ← rest with
  | [] => return none
  | .version _ _ :: _ | .handle _ _ :: _ | .documentStart :: _ => some <$> markedDocument room
  | _ => some <$> node room true false

end Compose

/-- The nodes of the lexemes of one document; only marks of its end may follow. -/
def Tree.ofLexemes? (lexemes : List Lexeme) : Option Tree := do
  let (root?, composer) ←
    (Compose.document (lexemes.length + 1)).run ⟨lexemes, standardHandles, [], [], []⟩
  if composer.rest.all (· == .documentEnd) then
    some ⟨root?, composer.places, composer.marked⟩
  else none

end Formulary.Yaml
