/-
  Days and their numbers.

  The days of the calendar and the integers correspond to each other, in order: counting the days
  before a year and before a month numbers the days, and dividing by the mean length of a year
  finds the year again.

  * `Day.Proper`: the day exists in its year;
  * `Day.beforeYear_yearAt_le`, `Day.lt_beforeYear_yearAt`: the year of a number;
  * `Day.proper_ofNumber`, `Day.number_ofNumber`: the day of a number;
  * `Day.number_lt_number_iff`, `Day.ofNumber_number`: days are numbered in order;
  * `Day.proper_plusMonths`, `Day.monthIndex_plusMonths`: shifts by months;
  * `Instant.day_onDay`, `Instant.onDay_day`: instants as times of day.
-/
import Formulary.Calendar.Instant
import Mathlib.Data.Prod.Lex
import Mathlib.Tactic

namespace Formulary

namespace Day

variable {d e : Day} {year n : Int} {m l r : Nat}

/-! ## Years -/

/-- The days of a year. -/
def yearLength (year : Int) : Int := if isLeap year then 366 else 365

theorem beforeYear_succ (year : Int) :
    beforeYear (year + 1) = beforeYear year + yearLength year := by
  unfold beforeYear yearLength isLeap
  simp only [Bool.and_eq_true, Bool.or_eq_true, beq_iff_eq, bne_iff_ne]
  split <;> omega

theorem strictMono_beforeYear : StrictMono beforeYear := by
  refine strictMono_int_of_lt_succ fun year => ?_
  rw [beforeYear_succ, yearLength]
  split <;> omega

/-- Years have their mean length, up to two days. -/
theorem le_beforeYear (year : Int) : 146097 * (year - 1) - 699 ≤ 400 * beforeYear year := by
  unfold beforeYear
  dsimp only
  omega

theorem beforeYear_le (year : Int) : 400 * beforeYear year ≤ 146097 * (year - 1) + 396 := by
  unfold beforeYear
  dsimp only
  omega

theorem beforeYear_yearAt_le (n : Int) : beforeYear (yearAt n) ≤ n := by
  unfold yearAt
  have hbelow := beforeYear_le (n * 400 / 146097 + 1 - 1)
  dsimp only
  split_ifs <;> omega

theorem lt_beforeYear_yearAt (n : Int) : n < beforeYear (yearAt n + 1) := by
  unfold yearAt
  have habove := le_beforeYear (n * 400 / 146097 + 1 + 1 + 1)
  dsimp only
  split_ifs with hless
  · rwa [Int.sub_add_cancel]
  · omega
  · omega

/-! ## Months -/

theorem monthLength_pos (year : Int) (month : Nat) : 0 < monthLength year month := by
  unfold monthLength
  split_ifs <;> decide

theorem monthLength_le (year : Int) (month : Nat) : monthLength year month ≤ 31 := by
  unfold monthLength
  split_ifs <;> decide

/-- The days before a month and the days of the month. -/
theorem beforeMonth_succ (year : Int) (hm : 1 ≤ m) :
    beforeMonth year (m + 1) = beforeMonth year m + monthLength year m := by
  obtain ⟨m, rfl⟩ := Nat.exists_eq_add_of_le' hm
  rfl

theorem monotone_beforeMonth (year : Int) : Monotone (beforeMonth year) := by
  refine monotone_nat_of_le_succ fun month => ?_
  rcases Nat.eq_zero_or_pos month with rfl | hpos
  · exact le_rfl
  · rw [beforeMonth_succ year hpos]
    exact Nat.le_add_right _ _

/-- Twelve months are a year. -/
theorem beforeMonth_end (year : Int) : beforeMonth year 13 = yearLength year := by
  have hsum : beforeMonth year 13 =
      31 + monthLength year 2 + 31 + 30 + 31 + 30 + 31 + 31 + 30 + 31 + 30 + 31 := rfl
  rw [hsum, monthLength, yearLength, if_pos rfl]
  split <;> rfl

/-- The day that lies so many days after the start of a month lies in one of the months that are
looked at, if these are long enough. -/
theorem monthFrom_spec (hm : 1 ≤ m)
    (hleft : beforeMonth year m + l < beforeMonth year (m + r + 1)) :
    m ≤ (monthFrom year m l r).1 ∧ (monthFrom year m l r).1 ≤ m + r ∧
      1 ≤ (monthFrom year m l r).2 ∧
      (monthFrom year m l r).2 ≤ monthLength year (monthFrom year m l r).1 ∧
      beforeMonth year (monthFrom year m l r).1 + (monthFrom year m l r).2 =
        beforeMonth year m + l + 1 := by
  induction r generalizing m l with
  | zero =>
    rw [Nat.add_zero, beforeMonth_succ year hm] at hleft
    simp only [monthFrom]
    omega
  | succ r ih =>
    have hstep := beforeMonth_succ year hm
    rw [monthFrom]
    split
    next hin => dsimp only; omega
    next hout =>
      have hrest : beforeMonth year (m + 1) + (l - monthLength year m) <
          beforeMonth year (m + 1 + r + 1) := by
        rw [show m + 1 + r + 1 = m + (r + 1) + 1 by omega]
        omega
      have hspec := ih (Nat.le_add_left 1 m) hrest
      omega

/-! ## Days -/

/-- The day exists in its year. -/
structure Proper (d : Day) : Prop where
  one_le_month : 1 ≤ d.month
  month_le : d.month ≤ 12
  one_le_day : 1 ≤ d.day
  day_le : d.day ≤ monthLength d.year d.month

theorem valid_iff : d.Valid ↔ (firstYear ≤ d.year ∧ d.year ≤ lastYear) ∧ d.Proper := by
  unfold Valid
  constructor
  · rintro ⟨hfirst, hlast, hone, hmonth, hday, hle⟩
    exact ⟨⟨hfirst, hlast⟩, hone, hmonth, hday, hle⟩
  · rintro ⟨⟨hfirst, hlast⟩, hone, hmonth, hday, hle⟩
    exact ⟨hfirst, hlast, hone, hmonth, hday, hle⟩

/-- Days come after the ones of the years, and the months, before. -/
theorem Proper.number_bounds (hd : d.Proper) :
    beforeYear d.year + beforeMonth d.year d.month ≤ d.number + epoch ∧
      d.number + epoch < beforeYear d.year + beforeMonth d.year (d.month + 1) := by
  have hmonth := beforeMonth_succ d.year hd.one_le_month
  have hone := hd.one_le_day
  have hle := hd.day_le
  unfold number
  omega

theorem Proper.number_lt (hd : d.Proper) : d.number + epoch < beforeYear (d.year + 1) := by
  have hyear : beforeMonth d.year (d.month + 1) ≤ beforeMonth d.year 13 :=
    monotone_beforeMonth d.year (Nat.add_le_add_right hd.month_le 1)
  have hend := beforeMonth_end d.year
  have hnext := beforeYear_succ d.year
  have hbounds := hd.number_bounds
  omega

/-- Earlier days have smaller numbers. -/
theorem number_lt_number (hd : d.Proper) (he : e.Proper)
    (h : toLex (d.year, toLex (d.month, d.day)) < toLex (e.year, toLex (e.month, e.day))) :
    d.number < e.number := by
  have hdn := hd.number_bounds
  have hen := he.number_bounds
  simp only [Prod.Lex.toLex_lt_toLex] at h
  rcases h with hyear | ⟨hyear, hmonth | ⟨hmonth, hday⟩⟩
  · have hnext := strictMono_beforeYear.monotone (Int.add_one_le_of_lt hyear)
    have hlast := hd.number_lt
    omega
  · have hnext : beforeMonth e.year (d.month + 1) ≤ beforeMonth e.year e.month :=
      monotone_beforeMonth e.year hmonth
    rw [hyear] at hdn
    omega
  · unfold number
    rw [hyear, hmonth]
    omega

/-- Days are numbered in order. -/
theorem number_lt_number_iff (hd : d.Proper) (he : e.Proper) : d.number < e.number ↔
    toLex (d.year, toLex (d.month, d.day)) < toLex (e.year, toLex (e.month, e.day)) := by
  refine ⟨fun h => ?_, number_lt_number hd he⟩
  rcases lt_trichotomy (toLex (d.year, toLex (d.month, d.day)))
    (toLex (e.year, toLex (e.month, e.day))) with hlt | heq | hgt
  · exact hlt
  · obtain ⟨year, month, day⟩ := d
    obtain ⟨year', month', day'⟩ := e
    simp only [EmbeddingLike.apply_eq_iff_eq, Prod.mk.injEq] at heq
    obtain ⟨rfl, rfl, rfl⟩ := heq
    exact absurd h (lt_irrefl _)
  · exact absurd h (number_lt_number he hd hgt).not_gt

theorem number_injective (hd : d.Proper) (he : e.Proper) (h : d.number = e.number) : d = e := by
  have hlt := (number_lt_number_iff hd he).not.1 h.not_lt
  have hgt := (number_lt_number_iff he hd).not.1 h.not_gt
  have heq := le_antisymm (not_lt.1 hgt) (not_lt.1 hlt)
  obtain ⟨year, month, day⟩ := d
  obtain ⟨year', month', day'⟩ := e
  simpa using heq

/-- The day of a number lies in its year. -/
theorem ofNumber_spec (n : Int) : (ofNumber n).Proper ∧ (ofNumber n).number = n := by
  have hle := beforeYear_yearAt_le (n + epoch)
  have hlt := lt_beforeYear_yearAt (n + epoch)
  have hend := beforeMonth_end (yearAt (n + epoch))
  rw [beforeYear_succ] at hlt
  have hleft : (n + epoch - beforeYear (yearAt (n + epoch))).toNat <
      beforeMonth (yearAt (n + epoch)) 13 := by omega
  have hmonth := monthFrom_spec (m := 1) (r := 11) le_rfl
    (show beforeMonth _ 1 + _ < beforeMonth _ 13 from (Nat.zero_add _).trans_lt hleft)
  rw [show beforeMonth (yearAt (n + epoch)) 1 = 0 from rfl] at hmonth
  refine ⟨⟨?_, ?_, ?_, ?_⟩, ?_⟩
  all_goals unfold ofNumber
  · exact hmonth.1
  · exact hmonth.2.1
  · exact hmonth.2.2.1
  · exact hmonth.2.2.2.1
  · unfold number
    dsimp only
    omega

theorem proper_ofNumber (n : Int) : (ofNumber n).Proper := (ofNumber_spec n).1

theorem number_ofNumber (n : Int) : (ofNumber n).number = n := (ofNumber_spec n).2

theorem ofNumber_number (hd : d.Proper) : ofNumber d.number = d :=
  number_injective (proper_ofNumber _) hd (number_ofNumber _)

/-! ## Shifts by months -/

theorem monthIndex_plusMonths (d : Day) (n : Int) :
    (d.plusMonths n).monthIndex = d.monthIndex + n := by
  unfold plusMonths
  generalize d.monthIndex + n = index
  unfold monthIndex
  dsimp only
  omega

/-- The shifted day is told by its month and the length of that month. -/
theorem eq_plusMonths_iff (he : e.Proper) : e = d.plusMonths n ↔
    e.monthIndex = d.monthIndex + n ∧ e.day = min d.day (monthLength e.year e.month) := by
  constructor
  · rintro rfl
    exact ⟨monthIndex_plusMonths d n, rfl⟩
  · rintro ⟨hindex, hday⟩
    have hone := he.one_le_month
    have hle := he.month_le
    obtain ⟨year, month, day⟩ := e
    unfold plusMonths
    rw [← hindex]
    unfold monthIndex
    dsimp only at hday hone hle ⊢
    have hyear : (12 * year + month - 1) / 12 = year := by omega
    have hmonth : ((12 * year + month - 1) % 12).toNat + 1 = month := by omega
    rw [hyear, hmonth, ← hday]

theorem plusMonths_zero (hd : d.Proper) : d.plusMonths 0 = d :=
  ((eq_plusMonths_iff hd).2 ⟨(add_zero _).symm, (min_eq_left hd.day_le).symm⟩).symm

theorem proper_plusMonths (hd : d.Proper) (n : Int) : (d.plusMonths n).Proper := by
  unfold plusMonths
  generalize d.monthIndex + n = index
  refine ⟨?_, ?_, ?_, ?_⟩ <;> dsimp only
  · omega
  · omega
  · exact le_min hd.one_le_day (monthLength_pos _ _)
  · exact min_le_right _ _

end Day

namespace Instant

variable {d : Day} {second nanos : Nat}

/-! ## Times of day -/

theorem seconds_onDay (hsecond : second < 86400) :
    (onDay d second nanos).seconds / secondsPerDay = d.number ∧
      (onDay d second nanos).seconds % secondsPerDay = second := by
  unfold onDay secondsPerDay
  dsimp only
  omega

theorem day_onDay (hd : d.Proper) (hsecond : second < 86400) : (onDay d second nanos).day = d := by
  rw [day, (seconds_onDay hsecond).1, Day.ofNumber_number hd]

theorem secondOfDay_onDay (hsecond : second < 86400) :
    (onDay d second nanos).secondOfDay = second := by
  rw [secondOfDay, (seconds_onDay hsecond).2, Int.toNat_natCast]

theorem secondOfDay_lt (t : Instant) : t.secondOfDay < 86400 := by
  unfold secondOfDay secondsPerDay
  omega

theorem proper_day (t : Instant) : t.day.Proper := Day.proper_ofNumber _

/-- An instant is a time of its day. -/
theorem onDay_day (t : Instant) : onDay t.day t.secondOfDay t.nanos = t := by
  have hseconds : t.day.number * secondsPerDay + t.secondOfDay = t.seconds := by
    rw [day, Day.number_ofNumber]
    unfold secondOfDay secondsPerDay
    omega
  rw [onDay, hseconds]

/-- Midnights are in the order of their days. -/
theorem midnight_lt_iff (d e : Day) :
    (midnight d).lt (midnight e) = true ↔ d.number < e.number := by
  unfold midnight onDay lt secondsPerDay
  simp

end Instant
end Formulary
