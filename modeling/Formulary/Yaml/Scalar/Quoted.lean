/-
  Scalars between quotes.

  * `Yaml.readQuoted`: the text up to a closing quote, and what follows it.

  Between single quotes only a quote is written in a way of its own, namely twice;
  between double quotes a backslash starts an escape.
-/
import Formulary.Yaml.Scalar

namespace Formulary.Yaml

/-- The number that some hexadecimal digits denote. -/
def readHex (value : Nat) : Nat → List Char → Option (Nat × List Char)
  | 0, s => some (value, s)
  | n + 1, c :: rest => (hexDigit? c).bind fun d => readHex (16 * value + d) n rest
  | _ + 1, [] => none

/-- The character with a code of some digits. -/
def readCode (digits : Nat) (s : List Char) : Option (Char × List Char) :=
  (readHex 0 digits s).bind fun (n, rest) =>
    if n.isValidChar then some (Char.ofNat n, rest) else none

/-- The characters that are written as a backslash and one other character. -/
def shortEscapes : List (Char × Char) :=
  [('0', '\x00'), ('a', '\x07'), ('b', '\x08'), ('t', '\t'), ('\t', '\t'), ('n', '\n'),
   ('v', '\x0b'), ('f', '\x0c'), ('r', '\r'), ('e', '\x1b'), (' ', ' '), ('"', '"'),
   ('/', '/'), ('\\', '\\'), ('N', '\u0085'), ('_', '\u00a0'), ('L', '\u2028'),
   ('P', '\u2029')]

/-- The character that an escape stands for, after its backslash. -/
def readEscape (c : Char) (rest : List Char) : Option (Char × List Char) :=
  match c with
  | 'x' => readCode 2 rest
  | 'u' => readCode 4 rest
  | 'U' => readCode 8 rest
  | c => (shortEscapes.lookup c).map fun d => (d, rest)

theorem readHex_length_le {value n : Nat} {s : List Char} {r : Nat × List Char}
    (h : readHex value n s = some r) : r.2.length ≤ s.length := by
  induction n generalizing value s with
  | zero => simp only [readHex, Option.some.injEq] at h; simp [← h]
  | succ n ih =>
    cases s with
    | nil => simp [readHex] at h
    | cons c rest =>
      obtain ⟨d, -, hr⟩ := Option.bind_eq_some_iff.1 h
      have := ih hr
      simp only [List.length_cons]; omega

theorem readCode_length_le {digits : Nat} {s : List Char} {r : Char × List Char}
    (h : readCode digits s = some r) : r.2.length ≤ s.length := by
  obtain ⟨⟨n, rest⟩, hn, hr⟩ := Option.bind_eq_some_iff.1 h
  have := readHex_length_le hn
  grind

theorem readEscape_length_le {c : Char} {s : List Char} {r : Char × List Char}
    (h : readEscape c s = some r) : r.2.length ≤ s.length := by
  unfold readEscape at h
  split at h
  · exact readCode_length_le h
  · exact readCode_length_le h
  · exact readCode_length_le h
  · obtain ⟨d, -, rfl⟩ := Option.map_eq_some_iff.1 h
    exact Nat.le_refl _

/-- The text up to the closing quote, and what follows it.  A marker of a document
at the start of a line must not stand inside. -/
def readQuoted (double : Bool) (s : List Char) : Option (List Char × List Char) :=
  match s with
  | [] => none
  | c :: rest =>
    if isGap c then
      let gap := c :: rest.takeWhile isGap
      let after := rest.dropWhile isGap
      if endsLine gap && atMarker after then none
      else putFront (foldGap gap) (readQuoted double after)
    else if double then
      if c = '"' then some ([], rest)
      else if c = '\\' then
        match rest with
        | [] => none
        | d :: rest' =>
          if isBreak d then
            let gap := rest'.takeWhile isGap
            let after := rest'.dropWhile isGap
            if endsLine (d :: gap) && atMarker after then none
            else putFront (gap.filter isBreak) (readQuoted double after)
          else match _h : readEscape d rest' with
            | some (e, after) => putFront [e] (readQuoted double after)
            | none => none
      else putFront [c] (readQuoted double rest)
    else if c = '\'' then
      match rest with
      | '\'' :: rest' => putFront ['\''] (readQuoted double rest')
      | _ => some ([], rest)
    else putFront [c] (readQuoted double rest)
termination_by s.length
decreasing_by
  all_goals
    try have := length_dropWhile_le isGap rest
    try have := length_dropWhile_le isGap rest'
    try have := readEscape_length_le _h
    simp only [List.length_cons] at *
    omega

end Formulary.Yaml
