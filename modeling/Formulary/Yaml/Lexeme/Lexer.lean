/-
  Splitting a YAML text into lexemes.

  A key need not be marked: a node on one line is one if a colon follows.  So the
  place of every node that can be a key is kept until it cannot be one any more,
  and the lexeme of a key is put there when its colon is found.

  Blocks are nested by indentation.  The margin of a block is the least column of
  what is inside of it, and zero outside of all blocks.

  * `Yaml.Lexer`: what was read so far;
  * `Yaml.lexemes?`: the lexemes of a text.
-/
import Formulary.Yaml.Lexeme.Marks
import Formulary.Yaml.Scalar.Plain
import Formulary.Yaml.Scalar.Quoted

namespace Formulary.Yaml

/-- A node that is a key if a colon follows. -/
structure PossibleKey where
  /-- The node can be nothing but a key. -/
  required : Bool
  /-- The number of lexemes in front of it. -/
  place : Nat
  line : Nat
  column : Nat
  bytes : Nat

/-- What was read so far. -/
structure Lexer where
  spot : Spot
  found : Array Lexeme
  /-- The margins of the blocks around, inner ones first. -/
  margins : List Nat
  key? : Option PossibleKey
  /-- The possible keys outside of the brackets around, inner ones first. -/
  outerKeys : List (Option PossibleKey)
  /-- Whether a key can start here. -/
  keyAllowed : Bool

namespace Lexer

/-- The state before a text. -/
def start (s : List Char) : Lexer := ⟨⟨s, 0, 0, 0⟩, #[], [], none, [], true⟩

/-- Whether there are brackets around. -/
def inFlow (lexer : Lexer) : Bool := !lexer.outerKeys.isEmpty

def margin (lexer : Lexer) : Nat := lexer.margins.headD 0

def emit (lexer : Lexer) (lexeme : Lexeme) : Lexer :=
  { lexer with found := lexer.found.push lexeme }

def goTo (lexer : Lexer) (rest : List Char) : Lexer :=
  { lexer with spot := lexer.spot.goTo rest }

/-- A lexeme that ends where `rest` starts. -/
def emitUpTo (lexer : Lexer) (lexeme : Lexeme) (rest : List Char) : Lexer :=
  (lexer.emit lexeme).goTo rest

def allowKey (lexer : Lexer) (keyAllowed : Bool) : Lexer := { lexer with keyAllowed }

/-! ## Possible keys -/

/-- A key is on one line with its colon, at most 1024 bytes before it. -/
def isStale (spot : Spot) (key : PossibleKey) : Bool :=
  key.line < spot.line || key.bytes + 1024 < spot.bytes

/-- Drops a key if it is stale. -/
def refresh (spot : Spot) : Option PossibleKey → Option (Option PossibleKey)
  | none => some none
  | some key =>
    if isStale spot key then if key.required then none else some none else some (some key)

/-- Drops all keys that are stale. -/
def dropStale (lexer : Lexer) : Option Lexer := do
  let key? ← refresh lexer.spot lexer.key?
  let outerKeys ← lexer.outerKeys.mapM (refresh lexer.spot)
  return { lexer with key?, outerKeys }

/-- What was a possible key is none. -/
def forgetKey (lexer : Lexer) : Option Lexer :=
  if lexer.key?.any PossibleKey.required then none else some { lexer with key? := none }

/-- What starts here is a possible key, if there can be one. -/
def saveKey (lexer : Lexer) : Option Lexer :=
  if lexer.keyAllowed then
    let spot := lexer.spot
    let required := !lexer.inFlow && lexer.margin == spot.column + 1
    lexer.forgetKey.map fun lexer =>
      { lexer with
        key? := some ⟨required, lexer.found.size, spot.line, spot.column, spot.bytes⟩ }
  else some lexer

/-! ## Blocks -/

/-- Ends the blocks whose margin is above a limit. -/
def closeBlocks (lexer : Lexer) (limit : Nat) : Lexer :=
  if lexer.inFlow then lexer
  else
    let closed := (lexer.margins.takeWhile (limit < ·)).length
    { lexer with
      margins := lexer.margins.drop closed
      found := lexer.found ++ Array.replicate closed .blockEnd }

/-- Starts a block at a column, if none is there already; its lexeme is put at a
place among those found. -/
def openBlock (lexer : Lexer) (column place : Nat) (block : Lexeme) : Lexer :=
  if !lexer.inFlow && lexer.margin ≤ column then
    { lexer with
      margins := (column + 1) :: lexer.margins
      found := lexer.found.insertIdxIfInBounds place block }
  else lexer

/-- Starts a block with a sign that must stand where a key can. -/
def openBlockHere (lexer : Lexer) (block : Lexeme) : Option Lexer :=
  if lexer.inFlow then some lexer
  else if lexer.keyAllowed then
    some (lexer.openBlock lexer.spot.column lexer.found.size block)
  else none

/-! ## Blanks between lexemes -/

/-- Passes a mark of byte order, which counts as a character of its line but means
nothing where it starts one. -/
def skipMark (lineStart : Bool) : List Char → List Char
  | [] => []
  | c :: rest => if lineStart && c == '\ufeff' then rest else c :: rest

theorem length_skipMark_le (lineStart : Bool) (s : List Char) :
    (skipMark lineStart s).length ≤ s.length := by
  cases s with
  | nil => simp [skipMark]
  | cons c rest =>
    simp only [skipMark]
    split
    · simp
    · exact Nat.le_refl _

/-- Blanks, comments and line breaks at the front of a text, and whether a key can
start after them.  Tabs are blanks only where no key can start. -/
def skipBlanks (flow keyAllowed lineStart : Bool) (s : List Char) : Bool × List Char :=
  let blank (c : Char) : Bool := c == ' ' || ((flow || !keyAllowed) && c == '\t')
  let comment (s : List Char) : List Char := match s with
    | '#' :: _ => s.dropWhile fun c => !isBreak c
    | _ => s
  match _h : comment ((skipMark lineStart s).dropWhile blank) with
  | [] => (keyAllowed, [])
  | c :: rest =>
    if isBreak c then skipBlanks flow (keyAllowed || !flow) true rest
    else (keyAllowed, c :: rest)
termination_by s.length
decreasing_by
  have := length_skipMark_le lineStart s
  have := length_dropWhile_le blank (skipMark lineStart s)
  have : (comment ((skipMark lineStart s).dropWhile blank)).length
      ≤ ((skipMark lineStart s).dropWhile blank).length := by
    simp only [comment]
    split
    · exact length_dropWhile_le _ _
    · exact Nat.le_refl _
  simp only [_h, List.length_cons] at this
  omega

/-- Goes to the next lexeme, which ends the blocks that are indented more. -/
def advance (lexer : Lexer) : Option Lexer := do
  let (keyAllowed, rest) :=
    skipBlanks lexer.inFlow lexer.keyAllowed (lexer.spot.column == 0) lexer.spot.rest
  let lexer ← (lexer.goTo rest).dropStale
  return (lexer.closeBlocks (lexer.spot.column + 1)).allowKey keyAllowed

/-! ## Lexemes -/

/-- What stands by itself at the start of a line ends all blocks. -/
def outside (lexer : Lexer) : Option Lexer :=
  ((lexer.closeBlocks 0).forgetKey).map (·.allowKey false)

/-- A bracket that opens, before `rest`. -/
def openFlow (lexer : Lexer) (lexeme : Lexeme) (rest : List Char) : Option Lexer := do
  let lexer ← lexer.saveKey
  let inner := { lexer with outerKeys := lexer.key? :: lexer.outerKeys, key? := none }
  return (inner.emitUpTo lexeme rest).allowKey true

/-- A bracket that closes, before `rest`. -/
def closeFlow (lexer : Lexer) (lexeme : Lexeme) (rest : List Char) : Option Lexer := do
  let lexer ← lexer.forgetKey
  let outer := match lexer.outerKeys with
    | key? :: outerKeys => { lexer with key?, outerKeys }
    | [] => lexer
  return (outer.emitUpTo lexeme rest).allowKey false

/-- A sign after which a key can start in a block. -/
def blockSign (lexer : Lexer) (block lexeme : Lexeme) (rest : List Char) : Option Lexer := do
  let lexer ← (← lexer.openBlockHere block).forgetKey
  return lexer.emitUpTo lexeme rest

/-- A colon, before `rest`: what was a possible key is one. -/
def colon (lexer : Lexer) (rest : List Char) : Option Lexer :=
  match lexer.key? with
  | some key =>
    let marked := { lexer with
      key? := none
      found := lexer.found.insertIdxIfInBounds key.place .key }
    some (((marked.openBlock key.column key.place .blockMapping).emitUpTo .value rest).allowKey
      false)
  | none => do
    let lexer ← lexer.openBlockHere .blockMapping
    return (lexer.emitUpTo .value rest).allowKey !lexer.inFlow

/-- A lexeme that can start a key and ends where a key cannot start. -/
def keyPart (lexer : Lexer) (lexeme? : Option (Lexeme × List Char)) : Option Lexer := do
  let lexer ← lexer.saveKey
  let (lexeme, rest) ← lexeme?
  return (lexer.emitUpTo lexeme rest).allowKey false

def named (lexeme : String → Lexeme) : Option (String × List Char) → Option (Lexeme × List Char) :=
  Option.map fun (name, rest) => (lexeme name, rest)

def scalar (style : Style) : Option (List Char × List Char) → Option (Lexeme × List Char) :=
  Option.map fun (chars, rest) => (.scalar style (String.ofList chars), rest)

/-- A block of lines, before which no key ends. -/
def block (lexer : Lexer) (style : Style) (rest : List Char) : Option Lexer := do
  let lexer ← lexer.forgetKey
  let (lexeme, rest') ← scalar style (readBlock (style == .folded) lexer.margin rest)
  return (lexer.emitUpTo lexeme rest').allowKey true

/-- A scalar without quotes; if a line break ends it, a key can start after it. -/
def plain (lexer : Lexer) (s : List Char) : Option Lexer := do
  let lexer ← lexer.saveKey
  let found ← readPlain lexer.inFlow lexer.margin s
  return (lexer.emitUpTo (.scalar .plain (String.ofList found.text)) found.rest).allowKey
    found.endsLine

/-- Signs with which no plain scalar starts. -/
def signs : List Char :=
  ['-', '?', ':', ',', '[', ']', '\x7b', '\x7d', '#', '&', '*', '!', '|', '>', '\'', '"', '%',
   '@', '\x60']

/-- Whether a plain scalar starts with `c`, before `rest`. -/
def startsPlain (flow : Bool) (c : Char) (rest : List Char) : Bool :=
  !(isGap c || signs.contains c)
    || (c == '-' && !rest.head?.any isSpace)
    || (!flow && (c == '?' || c == ':') && !atGap rest)

/-- The lexeme that starts with `c`, before `rest`. -/
def read (lexer : Lexer) (c : Char) (rest : List Char) : Option Lexer :=
  let flow := lexer.inFlow
  if lexer.spot.column = 0 && c = '%' then do
    let lexer ← lexer.outside
    let (lexeme, rest') ← readDirective rest
    return lexer.emitUpTo lexeme rest'
  else if lexer.spot.column = 0 && atMarker (c :: rest) then
    lexer.outside.map fun lexer =>
      lexer.emitUpTo (if c = '-' then .documentStart else .documentEnd) (rest.drop 2)
  else if c = '[' then lexer.openFlow .openBracket rest
  else if c = '\x7b' then lexer.openFlow .openBrace rest
  else if c = ']' then lexer.closeFlow .closeBracket rest
  else if c = '\x7d' then lexer.closeFlow .closeBrace rest
  else if c = ',' then lexer.forgetKey.map fun lexer => (lexer.emitUpTo .comma rest).allowKey true
  else if c = '-' && atGap rest then
    (lexer.blockSign .blockSequence .dash rest).map (·.allowKey true)
  else if c = '?' && (flow || atGap rest) then
    (lexer.blockSign .blockMapping .key rest).map (·.allowKey !flow)
  else if c = ':' && (flow || atGap rest) then lexer.colon rest
  else if c = '*' then lexer.keyPart (named .aliasOf (readAnchor rest))
  else if c = '&' then lexer.keyPart (named .anchor (readAnchor rest))
  else if c = '!' then lexer.keyPart (readTag flow rest)
  else if c = '|' && !flow then lexer.block .literal rest
  else if c = '>' && !flow then lexer.block .folded rest
  else if c = '\'' then lexer.keyPart (scalar .quoted (readQuoted false rest))
  else if c = '"' then lexer.keyPart (scalar .quoted (readQuoted true rest))
  else if startsPlain flow c rest then lexer.plain (c :: rest)
  else none

/-- All lexemes.  The end of the text ends all blocks; a lexeme that takes nothing
from the text would be an error. -/
def run (lexer : Lexer) : Option (List Lexeme) :=
  match lexer.advance with
  | none => none
  | some ready =>
    match ready.spot.rest with
    | [] => ((ready.closeBlocks 0).forgetKey).map (·.found.toList)
    | c :: rest =>
      match ready.read c rest with
      | none => none
      | some next =>
        if next.spot.rest.length < lexer.spot.rest.length then run next else none
termination_by lexer.spot.rest.length

end Lexer

/-- The lexemes of a text. -/
def lexemes? (text : String) : Option (List Lexeme) :=
  (lines? text).bind fun s => (Lexer.start s).run

end Formulary.Yaml
