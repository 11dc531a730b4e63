/-
  The marks that start with a sign of their own: directives, anchors and tags.

  * `Yaml.readDirective`: a directive, after its percent sign;
  * `Yaml.readAnchor`: the name of an anchor or alias, after its sign;
  * `Yaml.readTag`: a tag, after its exclamation mark.
-/
import Formulary.Yaml.Lexeme
import Formulary.Yaml.Scalar.Block

namespace Formulary.Yaml

/-- The name at the front of a text. -/
def readName (s : List Char) : Option (String × List Char) :=
  let name := s.takeWhile isNameChar
  if name.isEmpty then none else some (String.ofList name, s.dropWhile isNameChar)

/-- Signs that may follow a name, beside blanks. -/
def afterName : List Char := ['?', ':', ',', ']', '\x7d', '%', '@', '\x60']

/-- The name of an anchor or alias. -/
def readAnchor (s : List Char) : Option (String × List Char) :=
  (readName s).filter fun (_, rest) => atGap rest || rest.head?.any afterName.contains

/-! ## Tags -/

/-- Signs of a tag, beside letters and digits. -/
def tagSigns : List Char :=
  [';', '/', '?', ':', '@', '&', '=', '+', '$', '.', '%', '!', '~', '*', '\'', '(', ')']

/-- The characters of a tag; one between angles may also hold commas and brackets. -/
def isTagChar (wide : Bool) (c : Char) : Bool :=
  isNameChar c || tagSigns.contains c || (wide && [',', '[', ']'].contains c)

/-- A byte that is written as a percent sign and two digits. -/
def readByte : List Char → Option (Nat × List Char)
  | '%' :: a :: b :: rest => do
    let high ← hexDigit? a
    let low ← hexDigit? b
    return (16 * high + low, rest)
  | _ => none

/-- More bytes of a character. -/
def readMoreBytes (code : Nat) : Nat → List Char → Option (Nat × List Char)
  | 0, s => some (code, s)
  | n + 1, s => (readByte s).bind fun (byte, rest) =>
    if byte / 64 = 2 then readMoreBytes (64 * code + byte % 64) n rest else none

/-- The least code that is written with a first byte like this one. -/
def leastCode (byte : Nat) : Nat :=
  if byte < 0x80 then 0 else if byte < 0xE0 then 0x80 else if byte < 0xF0 then 0x800 else 0x10000

/-- A character that is written as the bytes of its code, the first of which tells
how many there are.  Bytes of this form need not be the code of a character. -/
def readBytes (s : List Char) : Option (Option Char × List Char) :=
  (readByte s).bind fun (byte, rest) =>
    let code? :=
      if byte < 0x80 then some (byte, rest)
      else if byte / 32 = 6 then readMoreBytes (byte % 32) 1 rest
      else if byte / 16 = 14 then readMoreBytes (byte % 16) 2 rest
      else if byte / 8 = 30 then readMoreBytes (byte % 8) 3 rest
      else none
    code?.map fun (code, rest') =>
      (if leastCode byte ≤ code && code.isValidChar then some (Char.ofNat code) else none, rest')

theorem readByte_length {s : List Char} {r : Nat × List Char} (h : readByte s = some r) :
    r.2.length < s.length := by
  unfold readByte at h
  split at h
  · obtain ⟨high, -, h⟩ := Option.bind_eq_some_iff.1 h
    obtain ⟨low, -, h⟩ := Option.bind_eq_some_iff.1 h
    simp only [Option.pure_def, Option.some.injEq] at h
    subst h
    simp only [List.length_cons]; omega
  · simp at h

theorem readMoreBytes_length_le {code n : Nat} {s : List Char} {r : Nat × List Char}
    (h : readMoreBytes code n s = some r) : r.2.length ≤ s.length := by
  induction n generalizing code s with
  | zero => simp only [readMoreBytes, Option.some.injEq] at h; simp [← h]
  | succ n ih =>
    obtain ⟨⟨byte, rest⟩, hb, h⟩ := Option.bind_eq_some_iff.1 h
    have := readByte_length hb
    by_cases hm : byte / 64 = 2
    · have := ih (by simpa only [hm, if_true] using h)
      simp only at *; omega
    · simp [hm] at h

theorem readBytes_length {s : List Char} {r : Option Char × List Char} (h : readBytes s = some r) :
    r.2.length < s.length := by
  obtain ⟨⟨byte, rest⟩, hb, h⟩ := Option.bind_eq_some_iff.1 h
  obtain ⟨⟨code, rest'⟩, hc, rfl⟩ := Option.map_eq_some_iff.1 h
  have := readByte_length hb
  have : rest'.length ≤ rest.length := by
    split at hc
    · simp only [Option.some.injEq, Prod.mk.injEq] at hc
      simp [hc.2]
    · split at hc
      · exact readMoreBytes_length_le hc
      · split at hc
        · exact readMoreBytes_length_le hc
        · split at hc
          · exact readMoreBytes_length_le hc
          · simp at hc
  simp only at *; omega

/-- The characters of a tag at the front of a text, with nothing for bytes that are
the code of none. -/
def readTagChars (wide : Bool) (s : List Char) : Option (List (Option Char) × List Char) :=
  match s with
  | [] => some ([], [])
  | c :: rest =>
    if c = '%' then
      match _h : readBytes (c :: rest) with
      | some (d, rest') => putFront [d] (readTagChars wide rest')
      | none => none
    else if isTagChar wide c then putFront [some c] (readTagChars wide rest)
    else some ([], c :: rest)
termination_by s.length
decreasing_by
  · exact readBytes_length _h
  · simp

/-- The text of a tag.  A null character ends it, so that another one can stand for
bytes that are the code of no character. -/
def tagText (chars : List (Option Char)) : String :=
  String.ofList ((chars.takeWhile (· != some '\x00')).map (·.getD '\x00'))

/-- A tag or the end of one: at least one character. -/
def readTagText (wide : Bool) (s : List Char) : Option (String × List Char) :=
  (readTagChars wide s).bind fun (chars, rest) =>
    if chars.isEmpty then none else some (tagText chars, rest)

/-- A tag between angles, after the first one. -/
def readFullTag (s : List Char) : Option (Lexeme × List Char) := do
  let (whole, rest) ← readTagText true s
  match rest with
  | '>' :: rest' => some (.tag "" whole, rest')
  | _ => none

/-- A tag that starts with a shorthand.  One exclamation mark by itself is a tag
without a shorthand. -/
def readShortTag (s : List Char) : Option (Lexeme × List Char) :=
  let name := s.takeWhile isNameChar
  match s.dropWhile isNameChar with
  | '!' :: rest =>
    (readTagText false rest).map fun (suffix, rest') =>
      (.tag (String.ofList ('!' :: name ++ ['!'])) suffix, rest')
  | rest => (readTagChars false rest).map fun (chars, rest') =>
    let whole := tagText (name.map some ++ chars)
    (if whole.isEmpty then .tag "" "!" else .tag "!" whole, rest')

/-- A tag, which ends at a blank or between brackets also at a comma. -/
def readTag (flow : Bool) (s : List Char) : Option (Lexeme × List Char) :=
  let tag? := match s with
    | '<' :: rest => readFullTag rest
    | rest => readShortTag rest
  tag?.filter fun (_, rest) => atGap rest || (flow && rest.head? == some ',')

/-! ## Directives -/

/-- A part of a version, of nine digits at most. -/
def readVersionPart (s : List Char) : Option (Nat × List Char) :=
  let digits := s.takeWhile Char.isDigit
  if digits.isEmpty || 9 < digits.length then none
  else some (digits.foldl (fun n c => 10 * n + (c.toNat - '0'.toNat)) 0, s.dropWhile Char.isDigit)

/-- A version: two numbers with a point between them. -/
def readVersion (s : List Char) : Option (Lexeme × List Char) := do
  let (major, rest) ← readVersionPart s
  match rest with
  | '.' :: rest' =>
    let (minor, rest'') ← readVersionPart rest'
    some (.version major minor, rest'')
  | _ => none

/-- A shorthand for tags: an exclamation mark, a name and another exclamation mark,
or the first one alone. -/
def readHandleName : List Char → Option (List Char × List Char)
  | '!' :: rest =>
    let name := rest.takeWhile isNameChar
    match rest.dropWhile isNameChar with
    | '!' :: rest' => some ('!' :: name ++ ['!'], rest')
    | rest' => if name.isEmpty then some (['!'], rest') else none
  | _ => none

/-- A shorthand and what it stands for. -/
def readHandle (s : List Char) : Option (Lexeme × List Char) := do
  let (name, rest) ← readHandleName s
  if !rest.head?.any isSpace then none
  else
    let (start, rest') ← readTagText true (rest.dropWhile isSpace)
    if atGap rest' then some (.handle (String.ofList name) start, rest') else none

/-- A directive with the rest of its line. -/
def readDirective (s : List Char) : Option (Lexeme × List Char) := do
  let (name, rest) ← readName s
  if !atGap rest then none
  else
    let operands := rest.dropWhile isSpace
    let (directive, after) ← match name with
      | "YAML" => readVersion operands
      | "TAG" => readHandle operands
      | _ => none
    (readLineEnd after).map fun after' => (directive, after')

end Formulary.Yaml
