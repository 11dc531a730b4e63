/-
  Texts of numbers beyond the finite ones.

  A decimal is read as the number nearest to it.  From halfway between the largest finite number
  and the next power of two on, this is infinity.  Besides, there are the words for infinity and
  for what is not a number.

  * `Number.le_nearest_iff`: when rounding reaches an even whole number;
  * `Number.nearestOrdinal_eq_top_iff`: when a ratio of units is rounded to infinity;
  * `Number.isFinite_ofDecimal_iff`: which decimals are read as infinity;
  * `Number.exists_not_finite_iff`: which texts denote infinity, or what is not a number.
-/
import Formulary.Number.Reading
import Mathlib

namespace Formulary.Number

/-! ## Rounding -/

theorem le_nearest (num den : Nat) : num / den ≤ nearest num den := by
  unfold nearest
  grind

theorem nearest_le (num den : Nat) : nearest num den ≤ num / den + 1 := by
  unfold nearest
  grind

/-- Rounding reaches an even whole number from the value halfway below it. -/
theorem le_nearest_iff {m num den : Nat} (hden : 0 < den) (hm : m % 2 = 0) :
    m ≤ nearest num den ↔ 2 * m * den ≤ 2 * num + den := by
  have hnum : den * (num / den) + num % den = num := Nat.div_add_mod num den
  have hrest : num % den < den := Nat.mod_lt num hden
  rcases Nat.lt_trichotomy m (num / den + 1) with hlt | rfl | hgt
  · have hle : m * den ≤ den * (num / den) := by
      rw [Nat.mul_comm]
      exact Nat.mul_le_mul_left den (Nat.lt_succ_iff.1 hlt)
    refine iff_of_true ((Nat.lt_succ_iff.1 hlt).trans (le_nearest num den)) ?_
    rw [Nat.mul_assoc]
    omega
  · have hstep : 2 * (num / den + 1) * den = 2 * (den * (num / den)) + 2 * den := by ring
    rw [hstep, nearest]
    grind
  · have hle : den * (num / den + 2) ≤ m * den := by
      rw [Nat.mul_comm]
      exact Nat.mul_le_mul_right den hgt
    have hbelow : nearest num den < m := (nearest_le num den).trans_lt hgt
    refine iff_of_false (Nat.not_le.2 hbelow) ?_
    rw [Nat.mul_add] at hle
    rw [Nat.mul_assoc]
    omega

/-- A significand of so many bits is rounded to the next power of two at the most. -/
theorem nearest_le_of_lt {num den k : Nat} (h : num / den < 2 ^ (53 + k)) :
    nearest num (den * 2 ^ k) ≤ 2 ^ (53 : Nat) := by
  refine (nearest_le num _).trans ?_
  rw [← Nat.div_div_eq_div_mul]
  refine Nat.div_lt_of_lt_mul ?_
  rwa [← Nat.pow_add, Nat.add_comm]

theorem le_nearest_of_le {num den k : Nat} (h : 2 ^ (52 + k) ≤ num / den) :
    2 ^ (52 : Nat) ≤ nearest num (den * 2 ^ k) := by
  refine le_trans ?_ (le_nearest num _)
  rwa [← Nat.div_div_eq_div_mul, Nat.le_div_iff_mul_le (Nat.two_pow_pos k), ← Nat.pow_add]

/-! ## Overflow -/

/-- How often the significand of the largest finite number is doubled. -/
def lastDoublings : Nat := 2045

theorem topOrdinal_eq : topOrdinal = (lastDoublings + 2) * 2 ^ (52 : Nat) := rfl

/-- Twice the value, in units, halfway between the largest finite number and the next power of
two. -/
def overflow : Nat := (2 ^ (54 : Nat) - 1) * 2 ^ lastDoublings

/-- A ratio of units is rounded to infinity from there on. -/
theorem nearestOrdinal_eq_top_iff {num den : Nat} (hden : 0 < den) :
    nearestOrdinal num den = topOrdinal ↔ overflow * den ≤ 2 * num := by
  have hbelow : num / den < 2 ^ ((num / den).log2 + 1) := Nat.lt_log2_self
  generalize hk : (num / den).log2 - 52 = k
  have hbits : (num / den).log2 + 1 ≤ 53 + k := by omega
  replace hbelow := hbelow.trans_le (Nat.pow_le_pow_right Nat.two_pos hbits)
  rw [nearestOrdinal, hk, min_eq_left_iff, topOrdinal_eq]
  rcases Nat.lt_trichotomy k lastDoublings with hlt | rfl | hgt
  · -- the ratio has too few bits
    have hround := nearest_le_of_lt hbelow
    have hpow : 2 ^ (k + 1) ≤ 2 ^ lastDoublings := Nat.pow_le_pow_right Nat.two_pos hlt
    have hsmall : num < 2 ^ (52 : Nat) * (2 ^ lastDoublings * den) := by
      rw [← Nat.mul_assoc, ← Nat.div_lt_iff_lt_mul hden]
      refine hbelow.trans_le ?_
      rw [show 53 + k = 52 + (k + 1) by omega, Nat.pow_add]
      exact Nat.mul_le_mul_left _ hpow
    rw [overflow, Nat.mul_assoc]
    omega
  · -- it has as many as the largest finite numbers, so the significand has to be rounded up
    have hup (n : Nat) : (lastDoublings + 2) * 2 ^ (52 : Nat) ≤ lastDoublings * 2 ^ (52 : Nat) + n ↔
        2 ^ (53 : Nat) ≤ n := by omega
    have hpos : 0 < den * 2 ^ lastDoublings := Nat.mul_pos hden (Nat.two_pow_pos _)
    rw [hup, le_nearest_iff hpos (by decide), overflow, Nat.mul_assoc _ _ den, Nat.mul_comm den]
    omega
  · -- it has too many
    have hne : num / den ≠ 0 := by
      intro hzero
      rw [hzero, Nat.log2_zero] at hk
      omega
    have hmany : 2 ^ (52 + k) ≤ num / den := (Nat.le_log2 hne).1 (by omega)
    have hround := le_nearest_of_le hmany
    have hpow : 2 ^ (lastDoublings + 1) ≤ 2 ^ k := Nat.pow_le_pow_right Nat.two_pos hgt
    have hlarge : 2 ^ (53 : Nat) * (2 ^ lastDoublings * den) ≤ num := by
      rw [← Nat.mul_assoc, ← Nat.le_div_iff_mul_le hden]
      refine le_trans ?_ hmany
      rw [← Nat.pow_add, show 53 + lastDoublings = 52 + (lastDoublings + 1) by omega, Nat.pow_add,
        Nat.pow_add 2 52]
      exact Nat.mul_le_mul_left _ hpow
    rw [overflow, Nat.mul_assoc]
    omega

/-! ## Decimals -/

theorem ordinal_mk' {negative : Bool} {ordinal : Nat} (h : ordinal ≤ topOrdinal) :
    (mk' negative ordinal).ordinal.val = ordinal :=
  Nat.mod_eq_of_lt (h.trans_lt (by decide))

theorem isFinite_mk'_iff {negative : Bool} {ordinal : Nat} (h : ordinal ≤ topOrdinal) :
    (mk' negative ordinal).isFinite = false ↔ ordinal = topOrdinal := by
  rw [isFinite, ordinal_mk' h, decide_eq_false_iff_not]
  omega

theorem isFinite_ofUnits_iff {negative : Bool} {num den : Nat} (hden : 0 < den) :
    (ofUnits negative num den).isFinite = false ↔ overflow * den ≤ 2 * num := by
  rw [← nearestOrdinal_eq_top_iff hden]
  exact isFinite_mk'_iff (Nat.min_le_left _ _)

/-- The value of a decimal. -/
def value (d : Decimal) : ℚ := d.digits * 10 ^ d.exponent

/-- The value halfway between the largest finite number and the next power of two. -/
def bound : ℚ := 2 ^ (1024 : Nat) - 2 ^ (970 : Nat)

theorem cast_overflow (m n : Nat) : (((2 ^ (54 : Nat) - 1) * 2 ^ (1 + m + n) : Nat) : ℚ) =
    2 * (2 ^ (54 + m) - 2 ^ m) * ((2 ^ n : Nat) : ℚ) := by
  push_cast
  rw [pow_add, pow_add, pow_add]
  ring

theorem overflow_eq : (overflow : ℚ) = 2 * bound * scale := by
  have hdoublings : lastDoublings = 1 + 970 + 1074 := rfl
  have hwidth : 1024 = 54 + 970 := rfl
  rw [overflow, bound, scale, hdoublings, hwidth, cast_overflow 970 1074]

theorem value_mul (d : Decimal) :
    value d * 10 ^ (-d.exponent).toNat = d.digits * 10 ^ d.exponent.toNat := by
  have hexponent : d.exponent + (-d.exponent).toNat = d.exponent.toNat := by omega
  rw [value, mul_assoc, ← zpow_natCast, ← zpow_natCast, ← zpow_add₀ (by norm_num), hexponent]

/-- In units a decimal is rounded to infinity from the bound on. -/
theorem bound_le_iff (d : Decimal) :
    overflow * 10 ^ (-d.exponent).toNat ≤ 2 * (d.digits * scale * 10 ^ d.exponent.toNat) ↔
      bound ≤ value d := by
  have hscale : (0 : ℚ) < 2 * scale := by
    rw [scale]
    positivity
  have hdigits : (2 : ℚ) * (d.digits * scale * 10 ^ d.exponent.toNat) =
      2 * scale * (value d * 10 ^ (-d.exponent).toNat) := by
    rw [value_mul]
    ring
  have hbound : (2 : ℚ) * bound * scale * 10 ^ (-d.exponent).toNat =
      2 * scale * (bound * 10 ^ (-d.exponent).toNat) := by ring
  rw [← @Nat.cast_le ℚ]
  push_cast
  rw [overflow_eq, hdigits, hbound, mul_le_mul_iff_right₀ hscale,
    mul_le_mul_iff_left₀ (by positivity)]

theorem digits_lt (d : Decimal) : d.digits < 10 ^ d.text.length :=
  (Nat.length_toDigits_le_iff (by decide) Nat.length_toDigits_pos).1 le_rfl

theorem le_digits {d : Decimal} (h : d.digits ≠ 0) : 10 ^ (d.text.length - 1) ≤ d.digits := by
  rcases Nat.eq_zero_or_pos (d.text.length - 1) with hzero | hpos
  · rw [hzero]
    exact Nat.one_le_iff_ne_zero.2 h
  · rw [← Nat.not_lt, ← Nat.length_toDigits_le_iff (by decide) hpos]
    exact Nat.not_le.2 (Nat.sub_one_lt_of_lt (Nat.lt_of_lt_pred hpos))

theorem value_lt (d : Decimal) : value d < 10 ^ (d.leading + 1) := by
  have hlength : d.leading + 1 = d.text.length + d.exponent := by
    rw [Decimal.leading]
    omega
  rw [hlength, zpow_add₀ (by norm_num), zpow_natCast, value]
  have hdigits : (d.digits : ℚ) < 10 ^ d.text.length := by exact_mod_cast digits_lt d
  gcongr

theorem le_value {d : Decimal} (h : d.digits ≠ 0) : 10 ^ d.leading ≤ value d := by
  have hpos : 0 < d.text.length := Nat.length_toDigits_pos
  have hlength : d.leading = (d.text.length - 1 : Nat) + d.exponent := by
    rw [Decimal.leading]
    omega
  rw [hlength, zpow_add₀ (by norm_num), zpow_natCast, value]
  have hdigits : (10 : ℚ) ^ (d.text.length - 1) ≤ d.digits := by exact_mod_cast le_digits h
  gcongr

theorem one_le_bound : 1 ≤ bound := by
  have hwidth : 1024 = 54 + 970 := rfl
  rw [bound, hwidth, pow_add, ← sub_one_mul]
  exact one_le_mul_of_one_le_of_one_le (by norm_num) (one_le_pow₀ one_le_two)

theorem bound_le : bound ≤ 10 ^ decimalReach := by
  have hreach : decimalReach = (400 : Nat) := rfl
  rw [hreach, zpow_natCast]
  calc bound ≤ 2 ^ (1024 : Nat) := sub_le_self _ (by positivity)
    _ ≤ 2 ^ (3 * 400) := pow_le_pow_right₀ one_le_two (by decide)
    _ = (2 ^ 3) ^ 400 := pow_mul _ _ _
    _ ≤ 10 ^ 400 := pow_le_pow_left₀ (by norm_num) (by norm_num) _

/-- Decimals from the bound on are read as infinity. -/
theorem isFinite_ofDecimal_iff (negative : Bool) (d : Decimal) :
    (ofDecimal negative d).isFinite = false ↔ bound ≤ value d := by
  unfold ofDecimal
  split
  next hsmall =>
    simp only [Bool.or_eq_true, decide_eq_true_eq] at hsmall
    have hvalue : value d < 1 := by
      rcases hsmall with hzero | hleading
      · simp [value, hzero]
      · refine (value_lt d).trans_le (zpow_le_one_of_nonpos₀ (by norm_num) ?_)
        rw [decimalReach] at hleading
        omega
    rw [isFinite_mk'_iff (Nat.zero_le _)]
    exact iff_of_false (by decide) (not_le.2 (hvalue.trans_le one_le_bound))
  next hsmall =>
    split
    next hlarge =>
      have hdigits : d.digits ≠ 0 := fun hzero => hsmall (by simp [hzero])
      refine iff_of_true ((isFinite_mk'_iff le_rfl).2 rfl) ?_
      refine bound_le.trans (le_trans ?_ (le_value hdigits))
      exact zpow_le_zpow_right₀ (by norm_num) hlarge.le
    next hlarge =>
      rw [isFinite_ofUnits_iff (by positivity), bound_le_iff]

/-! ## Texts -/

/-- What stands behind the sign of a number, if it has one. -/
def unsigned : List Char → List Char
  | '-' :: rest => rest
  | '+' :: rest => rest
  | rest => rest

/-- A text denotes infinity or what is not a number: behind its sign it is one of the words, in
any case, or a decimal from the bound on. -/
def DenotesBeyond (text : String) : Prop :=
  (unsigned text.toList).map Char.toLower ∈ ["inf", "infinity", "nan"].map String.toList ∨
    ∃ d, Decimal.ofText? (unsigned text.toList) = some d ∧ bound ≤ value d

theorem ofText?_eq (text : String) :
    ∃ negative, ofText? text = ofUnsigned? negative (unsigned text.toList) := by
  unfold ofText?
  split
  next rest heq => exact ⟨true, by rw [heq, unsigned]⟩
  next rest heq => exact ⟨false, by rw [heq, unsigned]⟩
  next hminus hplus => exact ⟨false, by rw [unsigned.eq_3 _ hminus hplus]⟩

/-- The words denote what is not finite, and nothing else is a word. -/
theorem ofWord?_cases (negative : Bool) (text : List Char) :
    (∃ x, ofWord? negative text = some x ∧ x.isFinite = false) ∧
        text.map Char.toLower ∈ ["inf", "infinity", "nan"].map String.toList ∨
      ofWord? negative text = none ∧
        text.map Char.toLower ∉ ["inf", "infinity", "nan"].map String.toList := by
  have hinfinity : (infinity negative).isFinite = false := (isFinite_mk'_iff le_rfl).2 rfl
  have hnan : (notANumber negative).isFinite = false := by cases negative <;> decide
  simp only [ofWord?, Bool.or_eq_true, decide_eq_true_eq, List.map_cons, List.map_nil,
    List.mem_cons, List.not_mem_nil, or_false]
  split
  next hword => exact .inl ⟨⟨_, rfl, hinfinity⟩, hword.elim .inl (.inr ∘ .inl)⟩
  next hword =>
    split
    next hnone => exact .inl ⟨⟨_, rfl, hnan⟩, .inr (.inr hnone)⟩
    next hnone =>
      exact .inr ⟨rfl, fun hmem => hword (hmem.imp_right fun h => h.resolve_right hnone)⟩

/-- A number is read that is not finite exactly if the text is such a text. -/
theorem exists_not_finite_iff (text : String) :
    (∃ x, ofText? text = some x ∧ x.isFinite = false) ↔ DenotesBeyond text := by
  obtain ⟨negative, htext⟩ := ofText?_eq text
  rw [htext, ofUnsigned?, DenotesBeyond]
  rcases ofWord?_cases negative (unsigned text.toList) with ⟨⟨x, hx, hfinite⟩, hmem⟩ | ⟨hnone, hmem⟩
  · rw [hx]
    exact iff_of_true ⟨x, rfl, hfinite⟩ (.inl hmem)
  · simp only [hnone, Option.none_or, Option.map_eq_some_iff, hmem, false_or]
    constructor
    · rintro ⟨x, ⟨d, hd, rfl⟩, hfinite⟩
      exact ⟨d, hd, (isFinite_ofDecimal_iff negative d).1 hfinite⟩
    · rintro ⟨d, hd, hbound⟩
      exact ⟨_, ⟨d, hd, rfl⟩, (isFinite_ofDecimal_iff negative d).2 hbound⟩

end Formulary.Number
