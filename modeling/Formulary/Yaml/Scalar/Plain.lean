/-
  Scalars without quotes.

  * `Yaml.readPlain`: the words of a plain scalar, and what follows them.

  A plain scalar ends before a colon with a blank, before a comment, before a line
  that is not indented enough, and between brackets also before their signs.
-/
import Formulary.Yaml.Scalar

namespace Formulary.Yaml

/-- The signs that end a plain scalar between brackets. -/
def flowSigns : List Char := [',', '[', ']', '\x7b', '\x7d']

/-- Whether a sign follows that must not follow a colon between brackets. -/
def startsSign : List Char → Bool
  | c :: _ => c == '?' || flowSigns.contains c
  | [] => false

/-- The characters up to a blank or to what ends a plain scalar. -/
def readWord (flow : Bool) : List Char → Option (List Char × List Char)
  | [] => some ([], [])
  | c :: rest =>
    if isGap c then some ([], c :: rest)
    else if c = ':' && flow && startsSign rest then none
    else if (c = ':' && atGap rest) || (flow && flowSigns.contains c) then some ([], c :: rest)
    else putFront [c] (readWord flow rest)

theorem readWord_length {flow : Bool} {s : List Char} {r : List Char × List Char}
    (h : readWord flow s = some r) : r.1.length + r.2.length = s.length := by
  induction s generalizing r with
  | nil => simp only [readWord, Option.some.injEq] at h; simp [← h]
  | cons c rest ih =>
    simp only [readWord] at h
    split at h
    · simp_all only [Option.some.injEq]; simp [← h]
    · split at h
      · simp at h
      · split at h
        · simp_all only [Option.some.injEq]; simp [← h]
        · obtain ⟨⟨w, after⟩, hr, rfl⟩ := Option.map_eq_some_iff.1 h
          have := ih hr
          simp only [List.cons_append, List.nil_append, List.length_cons] at *
          omega

/-- Whether a tab stands where a later line has to be indented. -/
def tabIndents (indent : Nat) (gap : List Char) : Bool :=
  (gap.foldl (fun (column?, bad) c =>
    if isBreak c then (some 0, bad)
    else (column?.map (· + 1), bad || (c == '\t' && column?.any (· < indent))))
    ((none : Option Nat), false)).2

/-- Whether a plain scalar ends with the blanks and breaks before a text. -/
def plainEnds (flow : Bool) (indent : Nat) (gap after : List Char) : Bool :=
  gap.any isBreak && !flow && (indentation gap).length < indent
    || endsLine gap && atMarker after
    || match after with
      | c :: _ => c == '#'
      | [] => true

/-- A plain scalar at the front of a text. -/
structure PlainScalar where
  text : List Char
  rest : List Char
  /-- Whether a line break was the last thing read. -/
  endsLine : Bool

/-- The plain scalar at the front of a text, whose later lines have an indent. -/
def readPlain (flow : Bool) (indent : Nat) (s : List Char) : Option PlainScalar :=
  match _h : readWord flow s with
  | none => none
  | some ([], rest) => some ⟨[], rest, false⟩
  | some (c :: word, after) =>
    let gap := after.takeWhile isGap
    let rest := after.dropWhile isGap
    let ended : PlainScalar := ⟨c :: word, rest, gap.any isBreak⟩
    if gap.isEmpty then some ended
    else if tabIndents indent gap then none
    else if plainEnds flow indent gap rest then some ended
    else (readPlain flow indent rest).map fun more =>
      if more.text.isEmpty then ended
      else { more with text := c :: word ++ foldGap gap ++ more.text }
termination_by s.length
decreasing_by
  have := readWord_length _h
  have := length_dropWhile_le isGap after
  simp only [List.length_cons] at *
  omega

end Formulary.Yaml
