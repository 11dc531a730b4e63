/-
  Characters and texts: blanks and what they surround, parts of texts, and sets of characters
  given as tables of ranges.  The tables follow version 17 of the Unicode standard.

  * `Text.isBlank`, `Text.blankCodes`: the characters with the property White_Space, and their
    codes;
  * `Text.blank_or_gap`: what a text is in front of its first character that is not blank;
  * `Text.trim`: a text without the blanks at its two ends;
  * `Text.Trimmed`, `Text.trim_eq_self_iff`: the texts that trimming leaves as they are;
  * `Text.occurs`: whether a text occurs in another;
  * `Text.sameLetters`: equality that ignores the case of ASCII letters;
  * `Text.within`: whether a character lies in one of the ranges of a table.
-/

namespace Formulary.Text

/-! ## Blanks -/

/-- The characters with the property White_Space. -/
def isBlank (c : Char) : Bool :=
  let n := c.toNat
  (9 ≤ n && n ≤ 13) || n == 32 || n == 0x85 || n == 0xA0 || n == 0x1680
    || (0x2000 ≤ n && n ≤ 0x200A) || n == 0x2028 || n == 0x2029 || n == 0x202F
    || n == 0x205F || n == 0x3000

/-- The codes of the blanks. -/
def blankCodes : List Nat :=
  [9, 10, 11, 12, 13, 32, 0x85, 0xA0, 0x1680, 0x2000, 0x2001, 0x2002, 0x2003, 0x2004, 0x2005,
    0x2006, 0x2007, 0x2008, 0x2009, 0x200A, 0x2028, 0x2029, 0x202F, 0x205F, 0x3000]

theorem toNat_mem_blankCodes {c : Char} (h : isBlank c = true) : c.toNat ∈ blankCodes := by
  simp only [isBlank, Bool.or_eq_true, Bool.and_eq_true, decide_eq_true_eq, beq_iff_eq] at h
  simp only [blankCodes, List.mem_cons, List.not_mem_nil, or_false]
  omega

/-- What holds of no blank code holds of no blank. -/
theorem eq_false_of_isBlank {p : Char → Bool}
    (hp : ∀ n ∈ blankCodes, p (Char.ofNat n) = false) {c : Char} (h : isBlank c = true) :
    p c = false := by
  have hc := hp c.toNat (toNat_mem_blankCodes h)
  rwa [Char.ofNat_toNat] at hc

theorem not_isBlank_of {p : Char → Bool} (hp : ∀ n ∈ blankCodes, p (Char.ofNat n) = false)
    {c : Char} (hc : p c = true) : isBlank c = false := by
  cases hblank : isBlank c with
  | false => rfl
  | true => exact (Bool.false_ne_true ((eq_false_of_isBlank hp hblank).symm.trans hc)).elim

/-- Without the blanks at the start. -/
def trimStart (s : List Char) : List Char := s.dropWhile isBlank

/-- Without the blanks at the end. -/
def trimEnd (s : List Char) : List Char := (s.reverse.dropWhile isBlank).reverse

/-- Without the blanks at both ends. -/
def trim (s : List Char) : List Char := trimEnd (trimStart s)

/-- A string without the blanks at both ends. -/
def trimmed (s : String) : String := String.ofList (trim s.toList)

/-- No blank stands at either end. -/
def Trimmed (s : List Char) : Prop :=
  (∀ c ∈ s.head?, isBlank c = false) ∧ ∀ c ∈ s.getLast?, isBlank c = false

instance (s : List Char) : Decidable (Trimmed s) :=
  decidable_of_iff ((s.head?.all fun c => !isBlank c) && s.getLast?.all fun c => !isBlank c)
    (by simp only [Trimmed, Bool.and_eq_true, Option.all_eq_true, Bool.not_eq_true', Option.mem_def])

theorem isBlank_head?_trimStart {s : List Char} : ∀ c ∈ (trimStart s).head?, isBlank c = false := by
  intro c hc
  have h := List.head?_dropWhile_not isBlank s
  rw [show (s.dropWhile isBlank).head? = some c from hc] at h
  exact h

/-- A text is blank, or has a first character that is not. -/
theorem blank_or_gap (s : List Char) :
    (∀ c ∈ s, isBlank c = true) ∨ ∃ gap c rest, (∀ d ∈ gap, isBlank d = true) ∧
      isBlank c = false ∧ s = gap ++ c :: rest := by
  induction s with
  | nil => exact .inl nofun
  | cons c s ih =>
    cases hc : isBlank c with
    | false => exact .inr ⟨[], c, s, nofun, hc, rfl⟩
    | true =>
      rcases ih with hblank | ⟨gap, d, rest, hgap, hd, rfl⟩
      · exact .inl (List.forall_mem_cons.2 ⟨hc, hblank⟩)
      · exact .inr ⟨c :: gap, d, rest, List.forall_mem_cons.2 ⟨hc, hgap⟩, hd, rfl⟩

theorem trimStart_eq_self {s : List Char} (h : ∀ c ∈ s.head?, isBlank c = false) :
    trimStart s = s := by
  cases s with
  | nil => rfl
  | cons c rest => rw [trimStart, List.dropWhile_cons, h c rfl]; rfl

theorem trimEnd_eq (s : List Char) : trimEnd s = (trimStart s.reverse).reverse := rfl

theorem trimmed_trim (s : List Char) : Trimmed (trim s) := by
  constructor
  · intro c hc
    -- what is left in front of the blanks at the end still starts in the same way
    have hsuffix : trimStart (trimStart s).reverse <:+ (trimStart s).reverse :=
      List.dropWhile_suffix isBlank
    have hfront : trim s <+: trimStart s := by
      simpa only [trim, trimEnd_eq, List.reverse_reverse] using List.reverse_prefix.2 hsuffix
    obtain ⟨rest, hrest⟩ := hfront
    refine isBlank_head?_trimStart (s := s) c ?_
    rw [← hrest, List.head?_append, Option.mem_def.1 hc]
    rfl
  · intro c hc
    rw [trim, trimEnd_eq, List.getLast?_reverse] at hc
    exact isBlank_head?_trimStart c hc

theorem trim_eq_self_iff {s : List Char} : trim s = s ↔ Trimmed s := by
  constructor
  · intro h
    exact h ▸ trimmed_trim s
  · rintro ⟨hstart, hend⟩
    rw [trim, trimStart_eq_self hstart, trimEnd_eq, trimStart_eq_self, List.reverse_reverse]
    rwa [List.head?_reverse]

theorem trim_sublist (s : List Char) : (trim s).Sublist s := by
  have h (s : List Char) : (trimStart s).Sublist s := List.dropWhile_sublist isBlank
  rw [trim, trimEnd_eq, ← List.reverse_reverse s]
  refine ((h _).trans ?_).reverse
  rw [List.reverse_reverse]
  exact (h s).reverse

/-- Trimming takes away what a text is padded with. -/
theorem trim_padded {before s after : List Char} (hbefore : ∀ c ∈ before, isBlank c = true)
    (hafter : ∀ c ∈ after, isBlank c = true) (hne : s ≠ []) (hs : Trimmed s) :
    trim (before ++ (s ++ after)) = s := by
  obtain ⟨hstart, hend⟩ := hs
  have hhead : ∀ c ∈ (s ++ after).head?, isBlank c = false := by
    cases s with
    | nil => exact absurd rfl hne
    | cons c rest => exact hstart
  have hfront : trimStart (before ++ (s ++ after)) = s ++ after := by
    rw [trimStart, List.dropWhile_append_of_pos hbefore]
    exact trimStart_eq_self hhead
  have hback : trimStart (s ++ after).reverse = s.reverse := by
    rw [List.reverse_append, trimStart,
      List.dropWhile_append_of_pos fun c hc => hafter c (List.mem_reverse.1 hc)]
    refine trimStart_eq_self ?_
    rwa [List.head?_reverse]
  rw [trim, hfront, trimEnd_eq, hback, List.reverse_reverse]

/-! ## Parts of texts -/

/-- Whether `part` occurs in a text as a run of neighbouring characters. -/
def occurs (part : List Char) : List Char → Bool
  | [] => part.isEmpty
  | c :: rest => part.isPrefixOf (c :: rest) || occurs part rest

/-- Equality that ignores the case of ASCII letters. -/
def sameLetters (s t : String) : Bool :=
  s.toList.map Char.toLower == t.toList.map Char.toLower

/-! ## Tables of characters -/

/-- Whether a character lies in one of the closed ranges of a table. -/
def within (table : Array (Nat × Nat)) (c : Char) : Bool :=
  table.any fun range => range.1 ≤ c.toNat && c.toNat ≤ range.2

/-- Proofs by evaluation look a character up in the list, where that is much faster. -/
theorem within_eq (table : Array (Nat × Nat)) (c : Char) :
    within table c = table.toList.any fun range => range.1 ≤ c.toNat && c.toNat ≤ range.2 := by
  rw [within, Array.any_toList]

end Formulary.Text
