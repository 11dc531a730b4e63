/-
  Dates shifted by months.

  A shift by months leads to the month that lies so many months away, and there to the same day or
  to the last one, at the same time of day.  Where that month lies beyond the years that the
  calendar covers, there is a fault.  A year is twelve months.

  * `Instant.Covered`, `Instant.MonthsAfter`: the instant that lies so many months after another;
  * `Functions.shift_eq`: a shift by an amount of months or years is one by an integer of months;
  * `Functions.shiftMonths_eq_ok_iff`, `Functions.shiftMonths_cases`: what such a shift makes of a
    date;
  * `Functions.ShiftsByMonths`, `Functions.dateAdd_months`: `dateAdd` and `dateSubtract`.
-/
import Formulary.Proofs.Dates

namespace Formulary

namespace Instant

/-- The instant lies in a year that the calendar covers, as that of a date does. -/
def Covered (t : Instant) : Prop := Day.firstYear ≤ t.day.year ∧ t.day.year ≤ Day.lastYear

/-- The instant lies so many months after another one, on the same day of the month, or the last
day of a shorter one, and at the same time of day. -/
structure MonthsAfter (t s : Instant) (n : Int) : Prop where
  month : 12 * t.day.year + t.day.month = 12 * s.day.year + s.day.month + n
  day : t.day.day = min s.day.day (Day.monthLength t.day.year t.day.month)
  secondOfDay : t.secondOfDay = s.secondOfDay
  nanos : t.nanos = s.nanos

variable {s t : Instant} {n : Int}

/-- There is one such instant. -/
theorem monthsAfter_iff :
    t.MonthsAfter s n ↔ t = onDay (s.day.plusMonths n) s.secondOfDay s.nanos := by
  have hproper := Day.proper_plusMonths s.proper_day n
  constructor
  · intro h
    have hday : t.day = s.day.plusMonths n := by
      refine (Day.eq_plusMonths_iff t.proper_day).2 ⟨?_, h.day⟩
      have hmonth := h.month
      unfold Day.monthIndex
      omega
    rw [← hday, ← h.secondOfDay, ← h.nanos, onDay_day]
  · intro h
    have hday : t.day = s.day.plusMonths n := h ▸ day_onDay hproper s.secondOfDay_lt
    obtain ⟨hindex, hlast⟩ := (Day.eq_plusMonths_iff t.proper_day).1 hday
    unfold Day.monthIndex at hindex
    exact ⟨by omega, hlast, h ▸ secondOfDay_onDay s.secondOfDay_lt, h ▸ rfl⟩

/-- From one year of the calendar to another there are fewer months than a shift can have. -/
theorem MonthsAfter.natAbs_le (h : t.MonthsAfter s n) (hs : s.Covered) (ht : t.Covered) :
    n.natAbs ≤ monthReach := by
  have hmonth := h.month
  have hsm := s.proper_day.month_le
  have htm := t.proper_day.month_le
  unfold Covered Day.firstYear Day.lastYear at hs ht
  unfold monthReach
  omega

/-- A shift of a date by months. -/
theorem plusMonths?_eq_some_iff (hs : s.Covered) :
    s.plusMonths? n = some t ↔ t.Covered ∧ t.MonthsAfter s n := by
  rw [plusMonths?]
  split
  next hzero =>
    have hself : onDay (s.day.plusMonths n) s.secondOfDay s.nanos = s := by
      rw [hzero, Day.plusMonths_zero s.proper_day, onDay_day]
    rw [monthsAfter_iff, hself, Option.some.injEq, eq_comm]
    exact ⟨fun h => ⟨h ▸ hs, h⟩, And.right⟩
  next hne =>
    split
    next hreach =>
      have hproper := Day.proper_plusMonths s.proper_day n
      have hday : (onDay (s.day.plusMonths n) s.secondOfDay s.nanos).day = s.day.plusMonths n :=
        day_onDay hproper s.secondOfDay_lt
      rw [monthsAfter_iff, Option.map_eq_some_iff]
      unfold Covered
      constructor
      · rintro ⟨d, hd, rfl⟩
        obtain ⟨hvalid, hd⟩ := Option.ite_none_right_eq_some.1 hd
        obtain rfl := Option.some.inj hd
        rw [hday]
        exact ⟨(Day.valid_iff.1 hvalid).1, rfl⟩
      · rintro ⟨hcovered, rfl⟩
        rw [hday] at hcovered
        exact ⟨_, if_pos (Day.valid_iff.2 ⟨hcovered, hproper⟩), rfl⟩
    next hfar => exact iff_of_false nofun fun h => hfar (h.2.natAbs_le hs h.1)

end Instant

namespace Functions

open Number

variable {n : Int} {x x' y : Number} {s t : Instant} {name unit operation : String} {k : Nat}

/-! ## Shifts by an integer of months -/

/-- An instant an integer of months later. -/
def shiftMonths (operation : String) (t : Instant) (n : Int) : Except Fault Instant :=
  if 2 ^ (32 : Nat) - 1 < n.natAbs then .error (offsetOutOfRange operation)
  else match t.plusMonths? n with
    | some t' => .ok t'
    | none => .error (outOfRange operation)

/-- Amounts of months and years are integers of months, also where they are too large for that. -/
theorem shift_eq (h : x.Like n) (hpos : 0 < k) (hk : k < exactReach) :
    shift operation t x (.months k) = shiftMonths operation t (n * k) := by
  have hmonths := h.mul_ofNat hpos hk
  have hfar : monthsReach.lt (x.mul (ofNat k)).abs = true ↔
      2 ^ (32 : Nat) - 1 < (n * k).natAbs := hmonths.lt_abs_iff (by decide)
  have hclamp : (x.mul (ofNat k)).clampTo (-2 ^ (32 : Nat)) (2 ^ (32 : Nat)) =
      max (-2 ^ (32 : Nat)) (min (2 ^ (32 : Nat)) (n * k)) :=
    hmonths.clampTo_eq (by decide) (by decide) (by decide)
  simp only [shift, shiftMonths, h.trunc_eq, hfar]
  split
  next hout => rfl
  next hin =>
    have hexact : (x.mul (ofNat k)).clampTo (-2 ^ (32 : Nat)) (2 ^ (32 : Nat)) = n * k := by
      omega
    cases hlater : t.plusMonths? (n * k) <;> simp only [hexact, hlater]

/-- A date is shifted to the one that lies so many months after it. -/
theorem shiftMonths_eq_ok_iff (ht : t.Covered) :
    shiftMonths operation t n = .ok s ↔ s.Covered ∧ s.MonthsAfter t n := by
  rw [← Instant.plusMonths?_eq_some_iff ht, shiftMonths]
  split
  next hfar =>
    refine iff_of_false nofun fun h => ?_
    obtain ⟨hs, hafter⟩ := (Instant.plusMonths?_eq_some_iff ht).1 h
    have hreach := hafter.natAbs_le ht hs
    unfold Instant.monthReach at hreach
    omega
  next hnear => cases t.plusMonths? n <;> simp

/-- There is no other fault than that the shift leads too far. -/
theorem shiftMonths_cases (operation : String) (t : Instant) (n : Int) :
    (∃ s, shiftMonths operation t n = .ok s) ∨
      ∃ reason, shiftMonths operation t n = .error (.domain operation reason) := by
  unfold shiftMonths
  split
  · exact .inr ⟨_, rfl⟩
  · cases t.plusMonths? n with
    | some s => exact .inl ⟨s, rfl⟩
    | none => exact .inr ⟨_, rfl⟩

/-! ## Functions that shift dates -/

theorem makes_shift {orient : Number → Number} {step : Step}
    (hf : ∀ clock, shiftFunction name orient ∈ dates clock) (hunit : Step.ofText? unit = some step)
    (t : Instant) (x : Number) : Makes name [.date t, .number x, .text unit]
      ((shift name t (orient x) step).map .date) := by
  refine makes_three (f := shiftFunction name orient)
    (fun clock => mem_catalog_of_mem_dates (hf clock)) ?_
  intro a b c σ answer s s₁ s₂ s' ha hb hc
  refine (Evaluation.run_bind_of_ok (run_dateArgument ha rfl name) _).trans ?_
  refine (Evaluation.run_bind_of_ok (Argument.run_number hb name) _).trans ?_
  refine (Evaluation.run_bind_of_ok (Argument.run_text hc name) _).trans ?_
  rw [hunit]
  exact Evaluation.run_ofResult _

/-- A function shifts a date by an integer of months: to the date that lies so many months after
it, and if there is none, it is a fault. -/
structure ShiftsByMonths (name : String) (t : Instant) (x : Number) (unit : String) (n : Int) :
    Prop where
  made_iff : ∀ s, Makes name [.date t, .number x, .text unit] (.ok (.date s)) ↔
    s.Covered ∧ s.MonthsAfter t n
  refused : (∀ s : Instant, s.Covered → ¬ s.MonthsAfter t n) →
    ∃ reason, Makes name [.date t, .number x, .text unit] (.error (.domain name reason))

theorem shiftsByMonths (ht : t.Covered)
    (h : Makes name [.date t, .number x, .text unit] ((shiftMonths name t n).map .date)) :
    ShiftsByMonths name t x unit n where
  made_iff s := by
    rw [h.iff, ← shiftMonths_eq_ok_iff ht]
    cases hshift : shiftMonths name t n <;> simp [Except.map, eq_comm]
  refused hnone := by
    obtain ⟨s, hs⟩ | ⟨reason, hreason⟩ := shiftMonths_cases name t n
    · obtain ⟨hcovered, hafter⟩ := (shiftMonths_eq_ok_iff ht).1 hs
      exact absurd hafter (hnone s hcovered)
    · rw [hreason] at h
      exact ⟨reason, h⟩

/-- The amount counts units that are so many months long. -/
theorem makes_shiftMonths {orient : Number → Number}
    (hf : ∀ clock, shiftFunction name orient ∈ dates clock)
    (hunit : Step.ofText? unit = some (.months k)) (hpos : 0 < k) (hk : k < exactReach)
    (hx : (orient x).Like n) (t : Instant) : Makes name [.date t, .number x, .text unit]
      ((shiftMonths name t (n * k)).map .date) := by
  rw [← shift_eq hx hpos hk]
  exact makes_shift hf hunit t x

/-- **Main result.** `dateAdd` and `dateSubtract` shift dates by months, back and forth, and years
are twelve months each. -/
theorem dateAdd_months (ht : t.Covered) (hx : x.toInt? = some n) (hx' : x'.toInt? = some (-n))
    (hy : y.StandsFor (12 * n)) :
    ShiftsByMonths "dateAdd" t x "months" n ∧ ShiftsByMonths "dateSubtract" t x' "months" n ∧
      ShiftsByMonths "dateAdd" t x "years" (12 * n) ∧
      ∀ r, Makes "dateAdd" [.date t, .number x, .text "years"] r ↔
        Makes "dateAdd" [.date t, .number y, .text "months"] r := by
  have hadd (clock : Instant) : shiftFunction "dateAdd" id ∈ dates clock := by simp [dates]
  have hsubtract (clock : Instant) : shiftFunction "dateSubtract" neg ∈ dates clock := by
    simp [dates]
  have hmonths : Step.ofText? "months" = some (.months 1) := by decide +kernel
  have hyears : Step.ofText? "years" = some (.months 12) := by decide +kernel
  have hforth := makes_shiftMonths hadd hmonths (by decide) (by decide) (.inl hx) t
  have hback := makes_shiftMonths hsubtract hmonths (by decide) (by decide) (Like.neg (.inl hx')) t
  have hyear := makes_shiftMonths hadd hyears (by decide) (by decide) (.inl hx) t
  have hmonth := makes_shiftMonths hadd hmonths (by decide) (by decide) hy.like t
  rw [Nat.cast_one, mul_one] at hforth hback hmonth
  rw [neg_neg] at hback
  rw [mul_comm, Nat.cast_ofNat] at hyear
  refine ⟨shiftsByMonths ht hforth, shiftsByMonths ht hback, shiftsByMonths ht hyear, fun r => ?_⟩
  rw [hyear.iff, hmonth.iff]

/-- A month after the last day of January is the last one of February, and a thousand million years
after it there are no dates. -/
theorem dateAdd_months_january :
    Makes "dateAdd" [.date (Instant.midnight ⟨2024, 1, 31⟩), .number (ofInt 1), .text "months"]
      (.ok (.date (Instant.midnight ⟨2024, 2, 29⟩))) ∧
    Makes "dateSubtract" [.date (Instant.midnight ⟨2024, 1, 31⟩), .number (ofInt (-1)),
      .text "months"] (.ok (.date (Instant.midnight ⟨2024, 2, 29⟩))) ∧
    ∃ reason, Makes "dateAdd" [.date (Instant.midnight ⟨2024, 1, 31⟩),
      .number (ofInt 1000000000), .text "years"] (.error (.domain "dateAdd" reason)) := by
  have ht : (Instant.midnight ⟨2024, 1, 31⟩).Covered := by
    constructor <;> decide +kernel
  have hcovered : (Instant.midnight ⟨2024, 2, 29⟩).Covered := by
    constructor <;> decide +kernel
  have hafter :
      (Instant.midnight ⟨2024, 2, 29⟩).MonthsAfter (Instant.midnight ⟨2024, 1, 31⟩) 1 := by
    constructor <;> decide +kernel
  have hint (n : Int) (hn : n.natAbs ≤ 1000000000) : (ofInt n).toInt? = some n :=
    toInt?_ofInt (hn.trans_lt (by decide))
  obtain ⟨hforth, hback, -, -⟩ := dateAdd_months ht (hint 1 (by decide)) (hint (-1) (by decide))
    (standsFor_ofInt _)
  obtain ⟨-, -, hyears, -⟩ := dateAdd_months ht (hint 1000000000 (by decide))
    (hint (-1000000000) (by decide)) (standsFor_ofInt _)
  refine ⟨(hforth.made_iff _).2 ⟨hcovered, hafter⟩, (hback.made_iff _).2 ⟨hcovered, hafter⟩,
    hyears.refused fun s hs h => ?_⟩
  exact absurd (h.natAbs_le ht hs) (by decide)

end Functions
end Formulary
