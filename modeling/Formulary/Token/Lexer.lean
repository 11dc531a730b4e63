/-
  Splitting a formula into tokens.

  * `Token.scan`: the token that a text starts with, and the rest of the text;
  * `Token.scan_suffix`: the rest is an end of the text, so splitting ends;
  * `tokenize`: the tokens of a text and where they start, or the first place
    where there is none.
-/
import Formulary.ParseFailure
import Formulary.Text.Alphabetic

namespace Formulary

namespace Token

/-! ## The parts of tokens -/

/-- What a backslash makes of the character after it. -/
def unescape (c : Char) : Char :=
  if c = 'n' then '\n' else if c = 't' then '\t' else c

/-- Puts a character in front of the text that was read. -/
def push (c : Char) : Option (List Char × List Char) → Option (List Char × List Char) :=
  Option.map fun r => (c :: r.1, r.2)

theorem push_eq_some {c : Char} {r : Option (List Char × List Char)} {read rest : List Char}
    (h : push c r = some (read, rest)) : ∃ read', r = some (read', rest) := by
  obtain ⟨⟨read', rest'⟩, hr, he⟩ := Option.map_eq_some_iff.1 h
  exact ⟨read', by simp_all⟩

/-- The text up to the closing quote, and what follows it.  A quote written twice
stands for itself, and a backslash takes the next character as it is. -/
def readText (quote : Char) : List Char → Option (List Char × List Char)
  | [] => none
  | [c] => if c = quote then some ([], []) else none
  | c :: d :: rest =>
    if c = quote then
      if d = quote then push quote (readText quote rest) else some ([], d :: rest)
    else if c = '\\' then push (unescape d) (readText quote rest)
    else push c (readText quote (d :: rest))

/-- The characters of a number up to its exponent. -/
def isMantissa (c : Char) : Bool := c.isDigit || c == '.'

/-- The exponent at the front of a text, and the rest: a sign belongs to it only
after the `e`. -/
def readExponent : List Char → List Char × List Char
  | c :: rest =>
    if c = 'e' || c = 'E' then
      match rest with
      | sign :: rest' =>
        if sign = '+' || sign = '-' then
          ('e' :: sign :: rest'.takeWhile Char.isDigit, rest'.dropWhile Char.isDigit)
        else ('e' :: rest.takeWhile Char.isDigit, rest.dropWhile Char.isDigit)
      | [] => (['e'], [])
    else ([], c :: rest)
  | [] => ([], [])

/-- The text of a number at the front of a text, and the rest. -/
def readNumber (s : List Char) : List Char × List Char :=
  let mantissa := s.takeWhile isMantissa
  let (exponent, rest) := readExponent (s.dropWhile isMantissa)
  (mantissa ++ exponent, rest)

def startsName (c : Char) : Bool := Text.isAlphabetic c || c == '_'

def continuesName (c : Char) : Bool := Text.isAlphanumeric c || c == '_' || c == '.'

/-- Whether a character may stand between the braces of a reference. -/
def isPlain (c : Char) : Bool := c != '\x7b' && c != '\x7d'

/-! ## One token -/

/-- A sign that may be written with a second character. -/
def signWith (short : Sign) (longer : List (Char × Sign)) (rest : List Char) : Token × List Char :=
  match rest with
  | d :: rest' => match longer.lookup d with
    | some long => (operator long, rest')
    | none => (operator short, d :: rest')
  | [] => (operator short, [])

/-- A sign that is always written twice. -/
def doubled (c : Char) (sign : Sign) : List Char → Except ParseCause (Token × List Char)
  | d :: rest => if d = c then .ok (operator sign, rest) else .error (.halfOperator c)
  | [] => .error (.halfOperator c)

/-- A path between braces, after the first brace. -/
def scanReference (rest : List Char) : Except ParseCause (Token × List Char) :=
  match rest.dropWhile isPlain with
  | c :: after =>
    if c = '\x7d' then
      let path := Text.trim (rest.takeWhile isPlain)
      if path.isEmpty then .error .emptyReference
      else .ok (reference (String.ofList path), after)
    else .error .unclosedReference
  | [] => .error .unclosedReference

/-- The token that starts with the character `c`, and the text after it. -/
def scan (c : Char) (rest : List Char) : Except ParseCause (Token × List Char) :=
  match c with
  | '(' => .ok (openParen, rest)
  | ')' => .ok (closeParen, rest)
  | '[' => .ok (openBracket, rest)
  | ']' => .ok (closeBracket, rest)
  | ',' => .ok (comma, rest)
  | '\u2192' => .ok (arrow, rest)
  | '+' => .ok (operator .plus, rest)
  | '*' => .ok (operator .times, rest)
  | '/' => .ok (operator .slash, rest)
  | '-' => match rest with
    | '>' :: rest' => .ok (arrow, rest')
    | _ => .ok (operator .minus, rest)
  | '=' => .ok (signWith .equal [('=', .doubleEqual)] rest)
  | '!' => .ok (signWith .bang [('=', .bangEqual)] rest)
  | '<' => .ok (signWith .less [('=', .lessEqual), ('>', .lessGreater)] rest)
  | '>' => .ok (signWith .greater [('=', .greaterEqual)] rest)
  | '&' => doubled '&' .doubleAnd rest
  | '|' => doubled '|' .doubleOr rest
  | '\x7b' => scanReference rest
  | c =>
    if c = '"' || c = '\'' then
      match readText c rest with
      | some (s, rest') => .ok (text (String.ofList s), rest')
      | none => .error .unclosedText
    else if c.isDigit then
      let (digits, rest') := readNumber (c :: rest)
      let text := String.ofList digits
      match Number.ofText? text with
      | some x => .ok (number x, rest')
      | none => .error (.badNumber text)
    else if startsName c then
      .ok (identifier (String.ofList (c :: rest.takeWhile continuesName)),
        rest.dropWhile continuesName)
    else .error (.strayCharacter c)

/-! ## The rest is an end of the text -/

theorem length_dropWhile_le (p : Char → Bool) (s : List Char) :
    (s.dropWhile p).length ≤ s.length :=
  (List.dropWhile_sublist p).length_le

theorem readText_suffix {quote : Char} {s read rest : List Char}
    (h : readText quote s = some (read, rest)) : rest <:+ s := by
  fun_induction readText quote s generalizing read rest with
  | case1 => simp at h
  | case2 => simp_all
  | case3 => simp_all
  | case4 rest' ih =>
    obtain ⟨read', hr⟩ := push_eq_some h
    exact ((ih hr).trans (List.suffix_cons _ _)).trans (List.suffix_cons _ _)
  | case5 d rest' hd =>
    simp only [Option.some.injEq, Prod.mk.injEq] at h
    exact h.2 ▸ List.suffix_cons _ _
  | case6 d rest' hq ih =>
    obtain ⟨read', hr⟩ := push_eq_some h
    exact ((ih hr).trans (List.suffix_cons _ _)).trans (List.suffix_cons _ _)
  | case7 c d rest' hq hb ih =>
    obtain ⟨read', hr⟩ := push_eq_some h
    exact (ih hr).trans (List.suffix_cons _ _)

theorem readExponent_suffix (s : List Char) : (readExponent s).2 <:+ s := by
  have h (r : List Char) : r.dropWhile Char.isDigit <:+ r := List.dropWhile_suffix _
  have hcons (c : Char) {r r' : List Char} (hr : r <:+ r') : r <:+ c :: r' :=
    hr.trans (List.suffix_cons _ _)
  fun_cases readExponent s with
  | case1 c he sign rest hs => exact hcons _ (hcons _ (h _))
  | case2 c he sign rest hs => exact hcons _ (h _)
  | case3 c he => exact hcons _ (List.suffix_refl _)
  | case4 c rest he => exact List.suffix_refl _
  | case5 => exact List.suffix_refl _

theorem readNumber_suffix (c : Char) (rest : List Char) (h : c.isDigit = true) :
    (readNumber (c :: rest)).2 <:+ rest := by
  have hd : (c :: rest).dropWhile isMantissa = rest.dropWhile isMantissa := by
    simp [isMantissa, h]
  simp only [readNumber, hd]
  exact (readExponent_suffix _).trans (List.dropWhile_suffix _)

theorem signWith_suffix (short : Sign) (longer : List (Char × Sign)) (rest : List Char) :
    (signWith short longer rest).2 <:+ rest := by
  unfold signWith
  split
  · split
    · exact List.suffix_cons _ _
    · exact List.suffix_refl _
  · exact List.suffix_refl _

theorem doubled_suffix {c : Char} {sign : Sign} {s rest : List Char} {token : Token}
    (h : doubled c sign s = .ok (token, rest)) : rest <:+ s := by
  unfold doubled at h
  split at h
  · split at h
    · simp only [Except.ok.injEq, Prod.mk.injEq] at h
      exact h.2 ▸ List.suffix_cons _ _
    · cases h
  · cases h

theorem scanReference_suffix {s rest : List Char} {token : Token}
    (h : scanReference s = .ok (token, rest)) : rest <:+ s := by
  have hdrop : s.dropWhile isPlain <:+ s := List.dropWhile_suffix _
  unfold scanReference at h
  split at h
  next c after hc =>
    split at h
    · dsimp only at h
      split at h
      · cases h
      · simp only [Except.ok.injEq, Prod.mk.injEq] at h
        exact h.2 ▸ (List.suffix_cons c after).trans (hc ▸ hdrop)
    · cases h
  next => cases h

theorem scan_suffix {c : Char} {s rest : List Char} {token : Token}
    (h : scan c s = .ok (token, rest)) : rest <:+ s := by
  have hsign (short : Sign) (longer : List (Char × Sign))
      (h : (.ok (signWith short longer s) : Except ParseCause _) = .ok (token, rest)) :
      rest <:+ s := by
    have hsuffix := signWith_suffix short longer s
    rwa [Except.ok.inj h] at hsuffix
  unfold scan at h
  split at h
  all_goals first
    | exact doubled_suffix h
    | exact scanReference_suffix h
    | exact hsign _ _ h
    | skip
  case h_10 => split at h <;> grind
  case h_18 =>
    split at h
    · split at h
      next hr => have := readText_suffix hr; grind
      next => simp at h
    · split at h
      next hd =>
        have hsuffix := readNumber_suffix _ s hd
        split at h
        grind
      next =>
        have : s.dropWhile continuesName <:+ s := List.dropWhile_suffix _
        split at h <;> grind
  all_goals grind

/-- So splitting a text ends. -/
theorem scan_length_le {c : Char} {s rest : List Char} {token : Token}
    (h : scan c s = .ok (token, rest)) : rest.length ≤ s.length :=
  (scan_suffix h).length_le

end Token

/-! ## All tokens -/

/-- The tokens of a text that starts at a position. -/
def tokensFrom (position : Nat) (s : List Char) : Except ParseFailure (List Located) :=
  let start := position + (s.takeWhile Text.isBlank).length
  match _h : s.dropWhile Text.isBlank with
  | [] => .ok []
  | c :: rest =>
    match hs : Token.scan c rest with
    | .error cause => .error ⟨start, cause⟩
    | .ok (token, after) =>
      (tokensFrom (start + 1 + (rest.length - after.length)) after).map (⟨token, start⟩ :: ·)
termination_by s.length
decreasing_by
  have := Token.scan_length_le hs
  have := Token.length_dropWhile_le Text.isBlank s
  simp only [_h, List.length_cons] at this
  omega

theorem tokensFrom_eq (position : Nat) (s : List Char) :
    tokensFrom position s =
      let start := position + (s.takeWhile Text.isBlank).length
      match s.dropWhile Text.isBlank with
      | [] => .ok []
      | c :: rest =>
        match Token.scan c rest with
        | .error cause => .error ⟨start, cause⟩
        | .ok (token, after) =>
          (tokensFrom (start + 1 + (rest.length - after.length)) after).map
            (⟨token, start⟩ :: ·) := by
  rw [tokensFrom]
  dsimp only
  split
  next h => rw [h]
  next c rest h =>
    rw [h]
    dsimp only
    split
    next hs => rw [hs]
    next hs => rw [hs]

theorem tokensFrom_nil (position : Nat) : tokensFrom position [] = .ok [] := by
  rw [tokensFrom_eq]
  rfl

/-- Blanks in front only move the tokens. -/
theorem tokensFrom_gap (position : Nat) {gap : List Char}
    (h : ∀ c ∈ gap, Text.isBlank c = true) (s : List Char) :
    tokensFrom position (gap ++ s) = tokensFrom (position + gap.length) s := by
  rw [tokensFrom_eq, tokensFrom_eq (position + gap.length), List.takeWhile_append_of_pos h,
    List.dropWhile_append_of_pos h, List.length_append, Nat.add_assoc]

theorem tokensFrom_cons (position : Nat) {c : Char} {rest after : List Char} {token : Token}
    (hblank : Text.isBlank c = false) (hscan : Token.scan c rest = .ok (token, after)) :
    tokensFrom position (c :: rest) =
      (tokensFrom (position + 1 + (rest.length - after.length)) after).map
        (⟨token, position⟩ :: ·) := by
  rw [tokensFrom_eq, List.takeWhile_cons, List.dropWhile_cons, hblank]
  simp only [Bool.false_eq_true, if_false, hscan, List.length_nil, Nat.add_zero]

theorem tokensFrom_stray (position : Nat) {c : Char} {rest : List Char} {cause : ParseCause}
    (hblank : Text.isBlank c = false) (hscan : Token.scan c rest = .error cause) :
    tokensFrom position (c :: rest) = .error ⟨position, cause⟩ := by
  rw [tokensFrom_eq, List.takeWhile_cons, List.dropWhile_cons, hblank]
  simp only [Bool.false_eq_true, if_false, hscan, List.length_nil, Nat.add_zero]

/-- The tokens of a text. -/
def tokenize (s : String) : Except ParseFailure (List Located) := tokensFrom 0 s.toList

end Formulary
