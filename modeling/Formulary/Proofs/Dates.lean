/-
  Dates from numbers.

  `date` makes a date of a year, a month and a day where these are a day of the calendar, and
  `year`, `month` and `day` read them off again.  Dates made in this way compare as their years,
  months and days do, one after the other.

  * `IsDay`: integers that are a year, a month and a day;
  * `Functions.Written`: the arguments of `date`: numbers that integers come to;
  * `Functions.makes_date`, `Functions.makes_part`: what the functions make of such values;
  * `Functions.ReadBack`: dates are read back as written;
  * `Functions.date_readBack`: they are, and in order.
-/
import Formulary.Operators
import Formulary.Proofs.Applied
import Formulary.Proofs.Calendar
import Formulary.Proofs.Integers

namespace Formulary

/-- A year, a month and a day of the calendar, in any year. -/
def IsDay (y m d : Int) : Prop :=
  1 ≤ m ∧ m ≤ 12 ∧ 1 ≤ d ∧ d ≤ Day.monthLength y m.toNat

instance (y m d : Int) : Decidable (IsDay y m d) :=
  inferInstanceAs (Decidable (1 ≤ m ∧ m ≤ 12 ∧ 1 ≤ d ∧ d ≤ Day.monthLength y m.toNat))

variable {y m d y' m' d' n : Int}

theorem IsDay.proper (h : IsDay y m d) : (⟨y, m.toNat, d.toNat⟩ : Day).Proper := by
  obtain ⟨hone, hmonth, hday, hle⟩ := h
  constructor <;> dsimp only <;> omega

/-- Days are in the order of their dates. -/
theorem IsDay.number_lt_iff (h : IsDay y m d) (h' : IsDay y' m' d') :
    (⟨y, m.toNat, d.toNat⟩ : Day).number < (⟨y', m'.toNat, d'.toNat⟩ : Day).number ↔
      toLex (y, toLex (m, d)) < toLex (y', toLex (m', d')) := by
  rw [Day.number_lt_number_iff h.proper h'.proper]
  simp only [Prod.Lex.toLex_lt_toLex]
  unfold IsDay at h h'
  omega

namespace Functions

open Number

variable {x₁ x₂ x₃ : Number} {vs vs' : List Value} {t t' : Instant}

/-! ## Arguments of `date` -/

/-- Three numbers that a year, a month and a day come to, where dates are made of the year. -/
inductive Written (y m d : Int) : List Value → Prop where
  | intro {x₁ x₂ x₃ : Number} : y.natAbs ≤ yearReach → x₁.StandsFor y → x₂.StandsFor m →
      x₃.StandsFor d → Written y m d [.number x₁, .number x₂, .number x₃]

theorem Written.natAbs_le (h : Written y m d vs) : y.natAbs ≤ yearReach := by
  obtain ⟨hy, -, -, -⟩ := h
  exact hy

/-- A month or a day as a count: what is none comes to zero, or to one that is too large. -/
theorem toNat_clampTo {x : Number} (h : x.StandsFor n) :
    (x.clampTo 0 (2 ^ (32 : Nat) - 1)).toNat = min (2 ^ (32 : Nat) - 1) n.toNat := by
  rw [h.like.clampTo_eq (by decide) (by decide) (by decide)]
  omega

/-- Such counts are those of a day exactly if the integers are. -/
theorem valid_iff_isDay (hy : y.natAbs ≤ yearReach) :
    (⟨y, min (2 ^ (32 : Nat) - 1) m.toNat, min (2 ^ (32 : Nat) - 1) d.toNat⟩ : Day).Valid ↔
      IsDay y m d := by
  have hlength := Day.monthLength_le y
  unfold yearReach at hy
  unfold IsDay Day.Valid Day.firstYear Day.lastYear
  dsimp only
  by_cases hmonth : m ≤ 12
  · rw [min_eq_right (show m.toNat ≤ 2 ^ (32 : Nat) - 1 by omega)]
    have hle := hlength m.toNat
    omega
  · omega

/-- The day that is made of such numbers. -/
theorem dayOf?_eq (hy : y.natAbs ≤ yearReach) (h₁ : x₁.StandsFor y) (h₂ : x₂.StandsFor m)
    (h₃ : x₃.StandsFor d) :
    dayOf? x₁ x₂ x₃ = if IsDay y m d then some ⟨y, m.toNat, d.toNat⟩ else none := by
  have hyear : x₁.toInt? = some y := h₁.like.toInt? (hy.trans_lt (by decide))
  obtain ⟨hwhole, hvalue⟩ := Option.ite_none_right_eq_some.1 hyear
  rw [dayOf?, hwhole, Option.some.inj hvalue, toNat_clampTo h₂, toNat_clampTo h₃,
    decide_eq_true hy, Bool.and_self, if_pos rfl, Day.valid?]
  by_cases hday : IsDay y m d
  · rw [if_pos ((valid_iff_isDay hy).2 hday), if_pos hday]
    have hlength := Day.monthLength_le y m.toNat
    unfold IsDay at hday
    rw [min_eq_right (by omega), min_eq_right (by omega)]
  · rw [if_neg ((valid_iff_isDay hy).not.2 hday), if_neg hday]

/-! ## What the functions make of dates -/

theorem run_dateArgument {σ : Type} {answer : Path → Nat → σ → Result × σ} {s s' : σ}
    {a : Argument} {v : Value} (ha : a.value.run answer s = (.ok v, s')) (hv : v.asDate? = some t)
    (function : String) : (dateArgument function a).run answer s = (.ok t, s') := by
  refine (Evaluation.run_bind_of_ok ha _).trans ?_
  rw [hv]
  rfl

theorem makes_date (x₁ x₂ x₃ : Number) :
    Makes "date" [.number x₁, .number x₂, .number x₃] (match dayOf? x₁ x₂ x₃ with
      | some d => .ok (.date (Instant.midnight d))
      | none => .error (invalidDate x₁ x₂ x₃)) := by
  refine makes_three (f := dateFunction) (fun _ => mem_catalog_of_mem_dates (by simp [dates])) ?_
  intro a b c σ answer s s₁ s₂ s' ha hb hc
  refine (Evaluation.run_bind_of_ok (Argument.run_number ha "date") _).trans ?_
  refine (Evaluation.run_bind_of_ok (Argument.run_number hb "date") _).trans ?_
  refine (Evaluation.run_bind_of_ok (Argument.run_number hc "date") _).trans ?_
  cases dayOf? x₁ x₂ x₃ <;> rfl

theorem makes_part {name : String} {f : Day → Int}
    (hf : ∀ clock, partFunction name f ∈ dates clock) (t : Instant) :
    Makes name [.date t] (.ok (.number (ofInt (f t.day)))) := by
  refine makes_one (f := partFunction name f) (fun clock => mem_catalog_of_mem_dates (hf clock)) ?_
  intro a σ answer s s' ha
  exact Evaluation.run_bind_of_ok (run_dateArgument ha rfl name) _

/-- A function reads an integer off a date. -/
def ReadsAs (name : String) (t : Instant) (n : Int) : Prop :=
  ∃ x, Makes name [.date t] (.ok (.number x)) ∧ x.toInt? = some n

theorem readsAs_of_part {name : String} {f : Day → Int}
    (hf : ∀ clock, partFunction name f ∈ dates clock) (ht : f t.day = n)
    (hn : n.natAbs < exactReach) : ReadsAs name t n :=
  ⟨ofInt n, ht ▸ makes_part hf t, toInt?_ofInt hn⟩

/-! ## Dates of days -/

theorem Written.makes_ok (h : Written y m d vs) (hday : IsDay y m d) :
    Makes "date" vs (.ok (.date (Instant.midnight ⟨y, m.toNat, d.toNat⟩))) := by
  obtain @⟨x₁, x₂, x₃, hy, h₁, h₂, h₃⟩ := h
  have hmade := makes_date x₁ x₂ x₃
  rwa [dayOf?_eq hy h₁ h₂ h₃, if_pos hday] at hmade

theorem Written.makes_error (h : Written y m d vs) (hday : ¬ IsDay y m d) :
    ∃ reason, Makes "date" vs (.error (.domain "date" reason)) := by
  obtain @⟨x₁, x₂, x₃, hy, h₁, h₂, h₃⟩ := h
  have hmade := makes_date x₁ x₂ x₃
  rw [dayOf?_eq hy h₁ h₂ h₃, if_neg hday] at hmade
  exact ⟨_, hmade⟩

/-- A date that is made is the midnight of the day. -/
theorem Written.eq_midnight (h : Written y m d vs) (ht : Makes "date" vs (.ok (.date t))) :
    IsDay y m d ∧ t = Instant.midnight ⟨y, m.toNat, d.toNat⟩ := by
  by_cases hday : IsDay y m d
  · have heq := ht.unique (h.makes_ok hday)
    exact ⟨hday, Value.date.inj (Except.ok.inj heq)⟩
  · obtain ⟨reason, herror⟩ := h.makes_error hday
    exact nomatch ht.unique herror

/-- A date is read back as written: it is made exactly of the days of the calendar, and year,
month and day of it are those. -/
structure ReadBack (y m d : Int) (vs : List Value) : Prop where
  made : IsDay y m d → ∃ t, Makes "date" vs (.ok (.date t))
  refused : ¬ IsDay y m d → ∃ reason, Makes "date" vs (.error (.domain "date" reason))
  told : ∀ t, Makes "date" vs (.ok (.date t)) →
    ReadsAs "year" t y ∧ ReadsAs "month" t m ∧ ReadsAs "day" t d

theorem Written.readBack (h : Written y m d vs) : ReadBack y m d vs where
  made hday := ⟨_, h.makes_ok hday⟩
  refused hday := h.makes_error hday
  told t ht := by
    obtain ⟨hday, rfl⟩ := h.eq_midnight ht
    have htold : (Instant.midnight ⟨y, m.toNat, d.toNat⟩).day = ⟨y, m.toNat, d.toNat⟩ :=
      Instant.day_onDay hday.proper (by decide)
    have hy := h.natAbs_le
    have hlength := Day.monthLength_le y m.toNat
    unfold IsDay at hday
    unfold yearReach at hy
    have hreach {n : Int} (hn : n.natAbs ≤ 200000) : n.natAbs < exactReach :=
      hn.trans_lt (by decide)
    refine ⟨readsAs_of_part (f := Day.year) (fun _ => by simp [dates]) ?_ (hreach hy),
      readsAs_of_part (f := fun d => d.month) (fun _ => by simp [dates]) ?_ (hreach (by omega)),
      readsAs_of_part (f := fun d => d.day) (fun _ => by simp [dates]) ?_ (hreach (by omega))⟩
    · rw [htold]
    · rw [htold]
      exact Int.toNat_of_nonneg (by omega)
    · rw [htold]
      exact Int.toNat_of_nonneg (by omega)

/-- **Main result.** Dates are read back as written, and one of two dates comes before the other
exactly if its year, month and day do, one after the other. -/
theorem date_readBack (h : Written y m d vs) (h' : Written y' m' d' vs') :
    ReadBack y m d vs ∧ ∀ t t', Makes "date" vs (.ok (.date t)) →
      Makes "date" vs' (.ok (.date t')) → BinaryOp.lt.apply (.date t) (.date t') =
        .ok (.boolean (decide (toLex (y, toLex (m, d)) < toLex (y', toLex (m', d'))))) := by
  refine ⟨h.readBack, fun t t' ht ht' => ?_⟩
  obtain ⟨hday, rfl⟩ := h.eq_midnight ht
  obtain ⟨hday', rfl⟩ := h'.eq_midnight ht'
  have hlt : (Instant.midnight ⟨y, m.toNat, d.toNat⟩).lt
      (Instant.midnight ⟨y', m'.toNat, d'.toNat⟩) =
        decide (toLex (y, toLex (m, d)) < toLex (y', toLex (m', d'))) := by
    rw [Bool.eq_iff_iff, Instant.midnight_lt_iff, hday.number_lt_iff hday', decide_eq_true_iff]
  exact congrArg (fun b => Except.ok (Value.boolean b)) hlt

/-- A leap day, the day after it, and no day. -/
theorem date_readBack_leapDay :
    (∃ t t', Makes "date" ([2024, 2, 29].map fun n => .number (ofInt n)) (.ok (.date t)) ∧
      Makes "date" ([2024, 3, 1].map fun n => .number (ofInt n)) (.ok (.date t')) ∧
      ReadsAs "day" t 29 ∧ BinaryOp.lt.apply (.date t) (.date t') = .ok (.boolean true)) ∧
    ∃ reason, Makes "date" ([2023, 2, 29].map fun n => .number (ofInt n))
      (.error (.domain "date" reason)) := by
  have hleap : Written 2024 2 29 ([2024, 2, 29].map fun n => .number (ofInt n)) :=
    .intro (by decide) (standsFor_ofInt _) (standsFor_ofInt _) (standsFor_ofInt _)
  have hnext : Written 2024 3 1 ([2024, 3, 1].map fun n => .number (ofInt n)) :=
    .intro (by decide) (standsFor_ofInt _) (standsFor_ofInt _) (standsFor_ofInt _)
  have hnone : Written 2023 2 29 ([2023, 2, 29].map fun n => .number (ofInt n)) :=
    .intro (by decide) (standsFor_ofInt _) (standsFor_ofInt _) (standsFor_ofInt _)
  obtain ⟨hread, hlt⟩ := date_readBack hleap hnext
  obtain ⟨t, ht⟩ := hread.made (by decide)
  obtain ⟨t', ht'⟩ := (date_readBack hnext hleap).1.made (by decide)
  refine ⟨⟨t, t', ht, ht', (hread.told t ht).2.2, hlt t t' ht ht'⟩, ?_⟩
  exact (date_readBack hnone hnone).1.refused (by decide)

end Functions
end Formulary
