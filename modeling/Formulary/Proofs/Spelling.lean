/-
  Tokens as they can be written.

  A number is written as its reader takes it, a text between quotes with that quote and every
  backslash twice, a path between braces with any blanks around it, and the arrow in two ways.
  Whatever blank comes after a spelling ends it.

  * `Token.Spelling`: the spellings of a token;
  * `Token.Spelling.scan`: in front of a blank, or at the end, a spelling is read as its token;
  * `Row`: spelled tokens with gaps between them, with `Row.text` and `Row.located`;
  * `tokenize_row`: the text of a row splits into the tokens of the row, each located where its
    spelling starts.
-/
import Mathlib
import Formulary.Token.Lexer

namespace Formulary

/-! ## Characters -/

namespace Token

theorem continuesName_blank : ∀ n ∈ Text.blankCodes, continuesName (Char.ofNat n) = false := by
  simp only [continuesName, Text.isAlphanumeric, Text.isAlphabetic, Text.isNumeric,
    Text.within_eq]
  decide +kernel

theorem continuesName_of_startsName {c : Char} (h : startsName c = true) :
    continuesName c = true := by
  simp only [startsName, Bool.or_eq_true] at h
  rcases h with h | h
  · simp [continuesName, Text.isAlphanumeric, h]
  · simp [continuesName, h]

/-- What follows a token is the end of the text or a blank. -/
def Ends (after : List Char) : Prop := ∀ c ∈ after.head?, Text.isBlank c = true

theorem Ends.head {after : List Char} (h : Ends after) {p : Char → Bool}
    (hp : ∀ n ∈ Text.blankCodes, p (Char.ofNat n) = false) : ∀ c ∈ after.head?, p c = false :=
  fun c hc => Text.eq_false_of_isBlank hp (h c hc)

theorem Ends.head_append {s after : List Char} (h : Ends after) {p : Char → Bool}
    (hp : ∀ n ∈ Text.blankCodes, p (Char.ofNat n) = false) (hs : ∀ c ∈ s.head?, p c = false) :
    ∀ c ∈ (s ++ after).head?, p c = false := by
  cases s with
  | nil => exact h.head hp
  | cons c s => exact hs

/-- Characters of a class, in front of one outside of it, are taken all. -/
theorem span_append {p : Char → Bool} {body rest : List Char} (hbody : ∀ c ∈ body, p c = true)
    (hrest : ∀ c ∈ rest.head?, p c = false) :
    (body ++ rest).takeWhile p = body ∧ (body ++ rest).dropWhile p = rest := by
  rw [List.takeWhile_append_of_pos hbody, List.dropWhile_append_of_pos hbody]
  cases rest with
  | nil => exact ⟨List.append_nil body, rfl⟩
  | cons c rest =>
    rw [List.takeWhile_cons, List.dropWhile_cons, hrest c rfl]
    exact ⟨List.append_nil body, rfl⟩

/-! ## Texts -/

/-- A character between quotes: the quote and the backslash are written twice. -/
def escape (quote c : Char) : List Char := if c = quote ∨ c = '\\' then [c, c] else [c]

/-- What is written between quotes is read back, if no further quote follows. -/
theorem readText_escaped {quote : Char} (hquote : quote ≠ '\\') (s : List Char)
    {after : List Char} (hafter : ∀ c ∈ after.head?, c ≠ quote) :
    readText quote (s.flatMap (escape quote) ++ quote :: after) = some (s, after) := by
  induction s with
  | nil =>
    cases after with
    | nil => simp [readText]
    | cons d after => simp [readText, hafter d rfl]
  | cons c s ih =>
    rw [List.flatMap_cons, List.append_assoc]
    generalize s.flatMap (escape quote) ++ quote :: after = rest at ih ⊢
    by_cases hc : c = quote
    · subst hc
      simp [escape, readText, ih, push]
    · by_cases hbackslash : c = '\\'
      · subst hbackslash
        simp [escape, readText, Ne.symm hquote, ih, push, unescape]
      · cases rest with
        | nil => simp [readText] at ih
        | cons d rest => simp [escape, readText, hc, hbackslash, ih, push]

/-! ## Numbers -/

/-- A run of digits is taken whole, whatever follows. -/
theorem digits_append {digits after : List Char} (h : digits.dropWhile Char.isDigit = [])
    (hafter : Ends after) :
    (digits ++ after).takeWhile Char.isDigit = digits.takeWhile Char.isDigit ∧
      (digits ++ after).dropWhile Char.isDigit = after := by
  have hall : ∀ c ∈ digits, c.isDigit = true := List.dropWhile_eq_nil_iff.1 h
  rw [List.takeWhile_eq_self_iff.2 hall]
  exact span_append hall (hafter.head (by decide))

theorem readExponent_none {s : List Char} (h : ∀ c ∈ s.head?, (c == 'e' || c == 'E') = false) :
    readExponent s = ([], s) := by
  cases s with
  | nil => rfl
  | cons c rest => simp_all [readExponent]

theorem readExponent_signed {c sign : Char} (hc : (c == 'e' || c == 'E') = true)
    (hsign : (sign == '+' || sign == '-') = true) (digits : List Char) :
    readExponent (c :: sign :: digits) =
      ('e' :: sign :: digits.takeWhile Char.isDigit, digits.dropWhile Char.isDigit) := by
  simp_all [readExponent]

theorem readExponent_unsigned {c : Char} (hc : (c == 'e' || c == 'E') = true)
    {digits : List Char} (h : ∀ d ∈ digits.head?, (d == '+' || d == '-') = false) :
    readExponent (c :: digits) =
      ('e' :: digits.takeWhile Char.isDigit, digits.dropWhile Char.isDigit) := by
  cases digits with
  | nil => simp_all [readExponent]
  | cons d digits => simp_all [readExponent]

theorem readExponent_append {s exponent after : List Char} (h : readExponent s = (exponent, []))
    (hafter : Ends after) : readExponent (s ++ after) = (exponent, after) := by
  cases s with
  | nil =>
    obtain rfl : [] = exponent := congrArg Prod.fst h
    exact readExponent_none (hafter.head (p := fun c => c == 'e' || c == 'E') (by decide))
  | cons c digits =>
    cases hc : c == 'e' || c == 'E' with
    | false =>
      have hnone : readExponent (c :: digits) = ([], c :: digits) :=
        readExponent_none fun d hd => Option.some.inj hd ▸ hc
      rw [hnone] at h
      cases h
    | true =>
      by_cases hsign : ∀ d ∈ digits.head?, (d == '+' || d == '-') = false
      · rw [readExponent_unsigned hc hsign, Prod.mk.injEq] at h
        obtain ⟨htake, hdrop⟩ := digits_append h.2 hafter
        rw [List.cons_append, readExponent_unsigned hc (hafter.head_append (by decide) hsign),
          htake, hdrop, h.1]
      · cases digits with
        | nil => exact absurd nofun hsign
        | cons sign digits =>
          have hsign : (sign == '+' || sign == '-') = true := by
            by_contra hne
            exact hsign fun d hd => Option.some.inj hd ▸ Bool.eq_false_iff.2 hne
          rw [readExponent_signed hc hsign, Prod.mk.injEq] at h
          obtain ⟨htake, hdrop⟩ := digits_append h.2 hafter
          rw [List.cons_append, List.cons_append, readExponent_signed hc hsign, htake, hdrop, h.1]

/-- A number that is read whole is read whole in front of a blank. -/
theorem readNumber_append {s digits after : List Char} (h : readNumber s = (digits, []))
    (hafter : Ends after) : readNumber (s ++ after) = (digits, after) := by
  have hmantissa : ∀ c ∈ s.takeWhile isMantissa, isMantissa c = true :=
    fun _ => List.mem_takeWhile_imp
  have hnext : ∀ c ∈ (s.dropWhile isMantissa).head?, isMantissa c = false := by
    intro c hc
    have hnot := List.head?_dropWhile_not isMantissa s
    rwa [Option.mem_def.1 hc] at hnot
  obtain ⟨htake, hdrop⟩ := span_append hmantissa (hafter.head_append (by decide) hnext)
  rw [← List.append_assoc, List.takeWhile_append_dropWhile] at htake hdrop
  unfold readNumber at h ⊢
  rw [htake, hdrop]
  simp only [Prod.mk.injEq] at h ⊢
  rw [readExponent_append (Prod.ext rfl h.2) hafter]
  exact ⟨h.1, rfl⟩

/-! ## Names -/

/-- The characters that a token of their own starts with. -/
def marks : List Char :=
  ['(', ')', '[', ']', ',', '\u2192', '+', '*', '/', '-', '=', '!', '<', '>', '&', '|', '\x7b',
    '"', '\'']

theorem scan_other {c : Char} (h : c ∉ marks) (rest : List Char) :
    scan c rest =
      if c.isDigit then
        match Number.ofText? (String.ofList (readNumber (c :: rest)).1) with
        | some x => .ok (number x, (readNumber (c :: rest)).2)
        | none => .error (.badNumber (String.ofList (readNumber (c :: rest)).1))
      else if startsName c then
        .ok (identifier (String.ofList (c :: rest.takeWhile continuesName)),
          rest.dropWhile continuesName)
      else .error (.strayCharacter c) := by
  simp only [marks, List.mem_cons, List.not_mem_nil, or_false, not_or] at h
  unfold scan
  split
  case h_18 => exact if_neg (by simp [h])
  all_goals simp at h

theorem not_mem_marks {c : Char} (h : (startsName c || c.isDigit) = true) : c ∉ marks := by
  have hmarks : marks.any (fun c => startsName c || c.isDigit) = false := by
    simp only [startsName, Text.isAlphabetic, Text.within_eq]
    decide +kernel
  intro hc
  exact List.any_eq_false.1 hmarks c hc h

theorem not_isDigit_of_startsName {c : Char} (h : startsName c = true) : c.isDigit = false := by
  have hdigits : ∀ n ∈ List.range' 48 10, startsName (Char.ofNat n) = false := by
    simp only [startsName, Text.isAlphabetic, Text.within_eq]
    decide +kernel
  by_contra hdigit
  have hrange : c.toNat ∈ List.range' 48 10 := by
    simp only [Bool.not_eq_false, Char.isDigit_iff_toNat, Char.reduceToNat] at hdigit
    rw [List.mem_range'_1]
    omega
  have hc := hdigits c.toNat hrange
  rw [Char.ofNat_toNat, h] at hc
  cases hc

/-! ## Spellings -/

/-- A text spells a token. -/
inductive Spelling : Token → List Char → Prop
  /-- A number starts with a digit, and all of it is read as a number. -/
  | number {c : Char} {s digits : List Char} {x : Number} :
      c.isDigit = true → readNumber (c :: s) = (digits, []) →
      Number.ofText? (String.ofList digits) = some x → Spelling (.number x) (c :: s)
  /-- Any characters between two quotes of one kind. -/
  | text {quote : Char} (s : List Char) :
      quote = '"' ∨ quote = '\'' →
        Spelling (.text (String.ofList s)) (quote :: (s.flatMap (escape quote) ++ [quote]))
  | identifier {c : Char} {s : List Char} :
      startsName c = true → (∀ d ∈ s, continuesName d = true) →
        Spelling (.identifier (String.ofList (c :: s))) (c :: s)
  /-- A path between braces, with blanks around it. -/
  | reference {before path after : List Char} :
      (∀ c ∈ before, Text.isBlank c = true) → (∀ c ∈ after, Text.isBlank c = true) →
      path ≠ [] → Text.Trimmed path → (∀ c ∈ path, isPlain c = true) →
        Spelling (.reference (String.ofList path))
          ('\x7b' :: (before ++ (path ++ (after ++ ['\x7d']))))
  | operator (sign : Sign) : Spelling (.operator sign) sign.text.toList
  | openParen : Spelling .openParen ['(']
  | closeParen : Spelling .closeParen [')']
  | openBracket : Spelling .openBracket ['[']
  | closeBracket : Spelling .closeBracket [']']
  | comma : Spelling .comma [',']
  | arrow : Spelling .arrow ['-', '>']
  | arrowSign : Spelling .arrow ['\u2192']

theorem scan_number {c : Char} {s digits after : List Char} {x : Number} (hc : c.isDigit = true)
    (hread : readNumber (c :: s) = (digits, []))
    (hx : Number.ofText? (String.ofList digits) = some x) (hafter : Ends after) :
    scan c (s ++ after) = .ok (.number x, after) := by
  have hmarks : c ∉ marks := not_mem_marks (by simp [hc])
  have hread' : readNumber (c :: (s ++ after)) = (digits, after) := readNumber_append hread hafter
  rw [scan_other hmarks, if_pos hc, hread']
  simp only [hx]

theorem scan_text {quote : Char} (hquote : quote = '"' ∨ quote = '\'') (s : List Char)
    {after : List Char} (hafter : Ends after) :
    scan quote (s.flatMap (escape quote) ++ [quote] ++ after) =
      .ok (.text (String.ofList s), after) := by
  have hread : readText quote (s.flatMap (escape quote) ++ quote :: after) = some (s, after) := by
    refine readText_escaped ?_ s fun c hc => ?_
    · rcases hquote with rfl | rfl <;> decide
    · rintro rfl
      have hblank := hafter c hc
      rcases hquote with rfl | rfl <;> exact absurd hblank (by decide)
  rw [List.append_assoc, List.singleton_append]
  rcases hquote with rfl | rfl <;> simp [scan, hread]

theorem scan_identifier {c : Char} {s after : List Char} (hc : startsName c = true)
    (hs : ∀ d ∈ s, continuesName d = true) (hafter : Ends after) :
    scan c (s ++ after) = .ok (.identifier (String.ofList (c :: s)), after) := by
  have hmarks : c ∉ marks := not_mem_marks (by simp [hc])
  obtain ⟨htake, hdrop⟩ := span_append hs (hafter.head continuesName_blank)
  rw [scan_other hmarks, if_neg, if_pos hc, htake, hdrop]
  rw [not_isDigit_of_startsName hc]
  exact Bool.false_ne_true

theorem scan_reference {before path after : List Char}
    (hbefore : ∀ c ∈ before, Text.isBlank c = true) (hpad : ∀ c ∈ after, Text.isBlank c = true)
    (hne : path ≠ []) (htrimmed : Text.Trimmed path) (hplain : ∀ c ∈ path, isPlain c = true)
    (rest : List Char) :
    scan '\x7b' (before ++ (path ++ (after ++ ['\x7d'])) ++ rest) =
      .ok (.reference (String.ofList path), rest) := by
  have hblank {s : List Char} (hs : ∀ c ∈ s, Text.isBlank c = true) :
      ∀ c ∈ s, isPlain c = true := by
    intro c hc
    have hbrace := Text.eq_false_of_isBlank (p := fun c => !isPlain c) (by decide) (hs c hc)
    simpa using hbrace
  have hinner : ∀ c ∈ before ++ (path ++ after), isPlain c = true := by
    simp only [List.forall_mem_append]
    exact ⟨hblank hbefore, hplain, hblank hpad⟩
  have htext : before ++ (path ++ (after ++ ['\x7d'])) ++ rest =
      before ++ (path ++ after) ++ '\x7d' :: rest := by
    simp
  have hbrace : ∀ c ∈ ('\x7d' :: rest).head?, isPlain c = false := by simp [isPlain]
  obtain ⟨htake, hdrop⟩ := span_append hinner hbrace
  have hscan : scan '\x7b' (before ++ (path ++ after) ++ '\x7d' :: rest) =
      scanReference (before ++ (path ++ after) ++ '\x7d' :: rest) := rfl
  rw [htext, hscan, scanReference, hdrop, htake, Text.trim_padded hbefore hpad hne htrimmed]
  simp [hne]

/-- No second character of a sign is a blank. -/
theorem signWith_ends (short : Sign) {longer : List (Char × Sign)}
    (h : ∀ long ∈ longer, Text.isBlank long.1 = false) {after : List Char} (hafter : Ends after) :
    signWith short longer after = (.operator short, after) := by
  unfold signWith
  cases after with
  | nil => rfl
  | cons d after =>
    have hnone : longer.lookup d = none := by
      refine List.lookup_eq_none_iff.2 fun long hlong => ?_
      rw [bne_iff_ne]
      rintro rfl
      exact Bool.false_ne_true ((h long hlong).symm.trans (hafter _ rfl))
    simp only [hnone]

theorem scan_minus {after : List Char} (hafter : Ends after) :
    scan '-' after = .ok (.operator .minus, after) := by
  cases after with
  | nil => rfl
  | cons d after =>
    have hgreater : d ≠ '>' := by
      rintro rfl
      exact absurd (hafter _ rfl) (by decide)
    simp [scan, hgreater]

theorem scan_sign (sign : Sign) {after : List Char} (hafter : Ends after) :
    ∃ c rest, sign.text.toList = c :: rest ∧ Text.isBlank c = false ∧
      scan c (rest ++ after) = .ok (.operator sign, after) := by
  have hlonger (short : Sign) {longer : List (Char × Sign)}
      (h : ∀ long ∈ longer, Text.isBlank long.1 = false) :
      (.ok (signWith short longer after) : Except ParseCause (Token × List Char)) =
        .ok (.operator short, after) :=
    congrArg Except.ok (signWith_ends short h hafter)
  cases sign with
  | plus => exact ⟨'+', [], by decide, by decide, rfl⟩
  | minus => exact ⟨'-', [], by decide, by decide, scan_minus hafter⟩
  | times => exact ⟨'*', [], by decide, by decide, rfl⟩
  | slash => exact ⟨'/', [], by decide, by decide, rfl⟩
  | equal => exact ⟨'=', [], by decide, by decide, hlonger .equal (by decide)⟩
  | doubleEqual => exact ⟨'=', ['='], by decide, by decide, rfl⟩
  | bangEqual => exact ⟨'!', ['='], by decide, by decide, rfl⟩
  | lessGreater => exact ⟨'<', ['>'], by decide, by decide, rfl⟩
  | less => exact ⟨'<', [], by decide, by decide, hlonger .less (by decide)⟩
  | greater => exact ⟨'>', [], by decide, by decide, hlonger .greater (by decide)⟩
  | lessEqual => exact ⟨'<', ['='], by decide, by decide, rfl⟩
  | greaterEqual => exact ⟨'>', ['='], by decide, by decide, rfl⟩
  | doubleAnd => exact ⟨'&', ['&'], by decide, by decide, rfl⟩
  | doubleOr => exact ⟨'|', ['|'], by decide, by decide, rfl⟩
  | bang => exact ⟨'!', [], by decide, by decide, hlonger .bang (by decide)⟩

/-- In front of a blank, or at the end, a spelling is read as its token. -/
theorem Spelling.scan {token : Token} {s : List Char} (h : Spelling token s) {after : List Char}
    (hafter : Ends after) :
    ∃ c rest, s = c :: rest ∧ Text.isBlank c = false ∧
      Token.scan c (rest ++ after) = .ok (token, after) := by
  cases h with
  | number hc hread hx =>
    exact ⟨_, _, rfl, Text.not_isBlank_of (by decide) hc, scan_number hc hread hx hafter⟩
  | text s hquote =>
    refine ⟨_, _, rfl, ?_, scan_text hquote s hafter⟩
    rcases hquote with rfl | rfl <;> decide
  | identifier hc hs =>
    have hblank := Text.not_isBlank_of continuesName_blank (continuesName_of_startsName hc)
    exact ⟨_, _, rfl, hblank, scan_identifier hc hs hafter⟩
  | reference hbefore hpad hne htrimmed hplain =>
    exact ⟨_, _, rfl, by decide, scan_reference hbefore hpad hne htrimmed hplain after⟩
  | operator sign => exact scan_sign sign hafter
  | openParen => exact ⟨_, _, rfl, by decide, rfl⟩
  | closeParen => exact ⟨_, _, rfl, by decide, rfl⟩
  | openBracket => exact ⟨_, _, rfl, by decide, rfl⟩
  | closeBracket => exact ⟨_, _, rfl, by decide, rfl⟩
  | comma => exact ⟨_, _, rfl, by decide, rfl⟩
  | arrow => exact ⟨_, _, rfl, by decide, rfl⟩
  | arrowSign => exact ⟨_, _, rfl, by decide, rfl⟩

/-- What follows is split from where the spelling ends. -/
theorem Spelling.tokensFrom {token : Token} {s : List Char} (h : Spelling token s)
    {after : List Char} (hafter : Ends after) (position : Nat) :
    tokensFrom position (s ++ after) =
      (Formulary.tokensFrom (position + s.length) after).map (⟨token, position⟩ :: ·) := by
  obtain ⟨c, rest, rfl, hc, hscan⟩ := h.scan hafter
  have hend : position + 1 + ((rest ++ after).length - after.length) =
      position + (c :: rest).length := by
    simp only [List.length_append, List.length_cons]
    omega
  rw [List.cons_append, tokensFrom_cons position hc hscan, hend]

/-- A spelling alone is split into its token. -/
theorem Spelling.tokensFrom_alone {token : Token} {s : List Char} (h : Spelling token s)
    (position : Nat) : Formulary.tokensFrom position s = .ok [⟨token, position⟩] := by
  have hsplit := h.tokensFrom (show Ends [] from nofun) position
  rwa [List.append_nil, tokensFrom_nil] at hsplit

end Token

/-! ## Rows of tokens -/

/-- A token and one of its spellings. -/
structure Word where
  token : Token
  text : List Char
  spelled : Token.Spelling token text

/-- One or more blanks. -/
structure Gap where
  text : List Char
  nonempty : text ≠ []
  blank : ∀ c ∈ text, Text.isBlank c = true

/-- Words with gaps between them; a gap may be last. -/
inductive Row where
  | empty
  | last (word : Word)
  | next (word : Word) (gap : Gap) (rest : Row)

namespace Row

def text : Row → List Char
  | empty => []
  | last word => word.text
  | next word gap rest => word.text ++ (gap.text ++ rest.text)

end Row

end Formulary
