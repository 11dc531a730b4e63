/-
  Numbers that are integers.

  Integers up to `2 ^ 53` are numbers; beyond that some are, and the others come to one of their
  neighbours, or to infinity.  So a number that an integer comes to compares with small integers
  as the integer itself does.

  * `Number.unitsOf_nearestOrdinal`: which magnitudes are exact;
  * `Number.toInt?_eq_some_iff`: a number that is an integer, in units;
  * `Number.StandsFor`: the number that an integer comes to;
  * `Number.Like`: a number is an integer, or both are beyond the exact ones;
  * `Number.Like.clampTo_eq`, `Number.Like.lt_abs_iff`, `Number.Like.trunc_eq`, `Number.Like.neg`,
    `Number.Like.mul_ofNat`: what follows for ranges, comparisons and arithmetic.
-/
import Formulary.Number.Arithmetic
import Formulary.Proofs.Overflow

namespace Formulary.Number

variable {x y : Number} {n a : Int} {m o o' s d : Nat} {negative : Bool}

/-! ## Ordinals -/

/-- A magnitude from its significand and its doublings. -/
theorem unitsOf_add (hs : s < 2 ^ (53 : Nat)) (hd : 2 ^ (52 : Nat) ≤ s ∨ d = 0) :
    unitsOf (d * 2 ^ (52 : Nat) + s) = s * 2 ^ d := by
  have hdoublings : doublings (d * 2 ^ (52 : Nat) + s) = d := by
    unfold doublings
    omega
  rw [unitsOf, hdoublings, Nat.add_sub_cancel_left]

/-- Every ordinal has a significand. -/
theorem exists_significand (o : Nat) : ∃ s d, o = d * 2 ^ (52 : Nat) + s ∧
    s < 2 ^ (53 : Nat) ∧ (2 ^ (52 : Nat) ≤ s ∨ d = 0) := by
  refine ⟨o - doublings o * 2 ^ (52 : Nat), doublings o, ?_⟩
  unfold doublings
  omega

/-- A magnitude that has a significand is exact. -/
theorem nearestOrdinal_shift (hs : s < 2 ^ (53 : Nat)) (hd : 2 ^ (52 : Nat) ≤ s ∨ d = 0) :
    nearestOrdinal (s * 2 ^ d) 1 = Min.min topOrdinal (d * 2 ^ (52 : Nat) + s) := by
  have hlog : (s * 2 ^ d).log2 - 52 = d := by
    rcases hd with hlarge | rfl
    · have hne : s * 2 ^ d ≠ 0 := Nat.mul_ne_zero (by omega) (Nat.two_pow_pos d).ne'
      have hbits : (s * 2 ^ d).log2 = 52 + d := by
        rw [Nat.log2_eq_iff hne, show 52 + d + 1 = 53 + d by omega, Nat.pow_add, Nat.pow_add]
        exact ⟨Nat.mul_le_mul_right _ hlarge, Nat.mul_lt_mul_of_pos_right hs (Nat.two_pow_pos d)⟩
      omega
    · have hbits : s.log2 < 53 := by
        rcases Nat.eq_zero_or_pos s with rfl | hpos
        · decide
        · exact (Nat.log2_lt hpos.ne').2 hs
      rw [Nat.pow_zero, Nat.mul_one]
      omega
  have hround : nearest (s * 2 ^ d) (2 ^ d) = s := by
    have hpos := Nat.two_pow_pos d
    unfold nearest
    rw [Nat.mul_div_cancel _ hpos, Nat.mul_mod_left]
    simp [hpos]
  simp only [nearestOrdinal, Nat.div_one, hlog, Nat.one_mul, hround]

theorem nearestOrdinal_unitsOf (h : o ≤ topOrdinal) : nearestOrdinal (unitsOf o) 1 = o := by
  obtain ⟨s, d, rfl, hs, hd⟩ := exists_significand o
  rw [unitsOf_add hs hd, nearestOrdinal_shift hs hd, min_eq_right h]

theorem nearest_mul {c : Nat} (hc : 0 < c) (num den : Nat) :
    nearest (num * c) (den * c) = nearest num den := by
  simp only [nearest, Nat.mul_div_mul_right _ _ hc, Nat.mul_mod_mul_right, ← Nat.mul_assoc,
    Nat.mul_lt_mul_right hc]

/-- A ratio of units can be reduced. -/
theorem nearestOrdinal_mul {c : Nat} (hc : 0 < c) (u : Nat) :
    nearestOrdinal (u * c) c = nearestOrdinal u 1 := by
  simp only [nearestOrdinal, Nat.mul_div_cancel _ hc, Nat.div_one, Nat.mul_comm c,
    nearest_mul hc, Nat.one_mul]

/-- Greater ordinals have greater magnitudes. -/
theorem strictMono_unitsOf : StrictMono unitsOf := by
  intro o o' h
  obtain ⟨s, d, rfl, hs, hd⟩ := exists_significand o
  obtain ⟨s', d', rfl, hs', hd'⟩ := exists_significand o'
  rw [unitsOf_add hs hd, unitsOf_add hs' hd']
  rcases Nat.lt_trichotomy d d' with hlt | rfl | hgt
  · calc s * 2 ^ d < 2 ^ (53 : Nat) * 2 ^ d :=
          Nat.mul_lt_mul_of_pos_right hs (Nat.two_pow_pos d)
      _ = 2 ^ (52 : Nat) * 2 ^ (d + 1) := by
          rw [← Nat.pow_add, ← Nat.pow_add, show 53 + d = 52 + (d + 1) by omega]
      _ ≤ s' * 2 ^ d' :=
          Nat.mul_le_mul (by omega) (Nat.pow_le_pow_right Nat.two_pos hlt)
  · exact Nat.mul_lt_mul_of_pos_right (by omega) (Nat.two_pow_pos d)
  · omega

/-! ## Whole magnitudes -/

/-- Integers are numbers up to this far from zero. -/
def exactReach : Nat := 2 ^ (53 : Nat)

/-- The ordinal of that number. -/
def exactOrdinal : Nat := 1076 * 2 ^ (52 : Nat)

theorem exactOrdinal_le_top : exactOrdinal ≤ topOrdinal := by decide

/-- How often one unit is doubled to come to one. -/
def scaleDoublings : Nat := 1074

theorem scale_eq : scale = 2 ^ scaleDoublings := by
  unfold scale scaleDoublings
  rfl

theorem scale_pos : 0 < scale := scale_eq ▸ Nat.two_pow_pos _

/-- Whole magnitudes up to there have a significand. -/
theorem exists_significand_whole (hm : m ≤ exactReach) : ∃ s d, m * scale = s * 2 ^ d ∧
    s < 2 ^ (53 : Nat) ∧ (2 ^ (52 : Nat) ≤ s ∨ d = 0) ∧ d ≤ 1075 := by
  rcases Nat.eq_zero_or_pos m with rfl | hpos
  · exact ⟨0, 0, by simp, by decide, .inr rfl, by decide⟩
  rcases Nat.lt_or_eq_of_le hm with hlt | rfl
  · have hbits : m.log2 < 53 := (Nat.log2_lt hpos.ne').2 hlt
    have hsplit : (2 : Nat) ^ (52 - m.log2) * 2 ^ (m.log2 + 1022) = scale := by
      rw [← Nat.pow_add, scale_eq]
      exact congrArg (2 ^ ·) (by unfold scaleDoublings; omega)
    refine ⟨m * 2 ^ (52 - m.log2), m.log2 + 1022, ?_, ?_, .inl ?_, by omega⟩
    · rw [Nat.mul_assoc, hsplit]
    · calc m * 2 ^ (52 - m.log2) < 2 ^ (m.log2 + 1) * 2 ^ (52 - m.log2) :=
            Nat.mul_lt_mul_of_pos_right Nat.lt_log2_self (Nat.two_pow_pos _)
        _ = 2 ^ (53 : Nat) := by rw [← Nat.pow_add, show m.log2 + 1 + (52 - m.log2) = 53 by omega]
    · calc 2 ^ (52 : Nat) = 2 ^ m.log2 * 2 ^ (52 - m.log2) := by
            rw [← Nat.pow_add, show m.log2 + (52 - m.log2) = 52 by omega]
        _ ≤ m * 2 ^ (52 - m.log2) :=
            Nat.mul_le_mul_right _ (Nat.log2_self_le hpos.ne')
  · refine ⟨2 ^ (52 : Nat), scaleDoublings + 1, ?_, by decide, .inl le_rfl, le_rfl⟩
    rw [exactReach, scale_eq, Nat.pow_succ 2 scaleDoublings]
    omega

/-- They are exact. -/
theorem unitsOf_nearestOrdinal (hm : m ≤ exactReach) :
    unitsOf (nearestOrdinal (m * scale) 1) = m * scale := by
  obtain ⟨s, d, heq, hs, hd, hle⟩ := exists_significand_whole hm
  have htop : d * 2 ^ (52 : Nat) + s ≤ topOrdinal := by
    unfold topOrdinal
    omega
  rw [heq, nearestOrdinal_shift hs hd, min_eq_right htop, unitsOf_add hs hd]

/-- Greater whole magnitudes come to ordinals from there on. -/
theorem exactOrdinal_le (hm : exactReach ≤ m) : exactOrdinal ≤ nearestOrdinal (m * scale) 1 := by
  have hlarge : 2 ^ (53 + scaleDoublings) ≤ m * scale := by
    rw [Nat.pow_add, scale_eq]
    exact Nat.mul_le_mul_right _ hm
  have hne : m * scale ≠ 0 := (Nat.lt_of_lt_of_le (Nat.two_pow_pos _) hlarge).ne'
  have hbits : 53 + scaleDoublings ≤ (m * scale).log2 := (Nat.le_log2 hne).2 hlarge
  unfold nearestOrdinal
  refine le_min exactOrdinal_le_top ?_
  rw [Nat.div_one]
  have hround : 2 ^ (52 : Nat) ≤ nearest (m * scale) (1 * 2 ^ ((m * scale).log2 - 52)) := by
    refine le_nearest_of_le ?_
    rw [Nat.div_one, Nat.add_sub_cancel' (by omega)]
    exact Nat.log2_self_le hne
  unfold exactOrdinal
  unfold scaleDoublings at hbits
  omega

/-- These are whole too. -/
theorem exists_unitsOf_eq (ho : exactOrdinal ≤ o) :
    ∃ m, exactReach ≤ m ∧ unitsOf o = m * scale := by
  obtain ⟨s, d, rfl, hs, hd⟩ := exists_significand o
  unfold exactOrdinal at ho
  refine ⟨s * 2 ^ (d - 1074), ?_, ?_⟩
  · calc exactReach = 2 ^ (52 : Nat) * 2 ^ (1 : Nat) := by rw [← Nat.pow_add]; rfl
      _ ≤ s * 2 ^ (d - 1074) :=
          Nat.mul_le_mul (by omega) (Nat.pow_le_pow_right Nat.two_pos (by omega))
  · rw [unitsOf_add hs hd, scale_eq, Nat.mul_assoc, ← Nat.pow_add, scaleDoublings,
      Nat.sub_add_cancel (by omega)]

theorem unitsOf_exactOrdinal : unitsOf exactOrdinal = exactReach * scale := by
  have hordinal : exactOrdinal = (scaleDoublings + 1) * 2 ^ (52 : Nat) + 2 ^ (52 : Nat) := by
    unfold exactOrdinal scaleDoublings
    omega
  rw [hordinal, unitsOf_add (by decide) (.inl le_rfl), exactReach, scale_eq,
    Nat.pow_succ 2 scaleDoublings]
  omega

theorem nearestOrdinal_exactReach : nearestOrdinal (exactReach * scale) 1 = exactOrdinal := by
  rw [← unitsOf_exactOrdinal, nearestOrdinal_unitsOf exactOrdinal_le_top]

/-- Exact magnitudes are in the order of their ordinals. -/
theorem nearestOrdinal_lt_iff {c : Nat} (hc : c ≤ exactReach) (hm : m ≤ exactReach) :
    nearestOrdinal (c * scale) 1 < nearestOrdinal (m * scale) 1 ↔ c < m := by
  rw [← strictMono_unitsOf.lt_iff_lt, unitsOf_nearestOrdinal hc, unitsOf_nearestOrdinal hm,
    Nat.mul_lt_mul_right scale_pos]

/-! ## Numbers that are integers -/

theorem whole_eq (h : x.units = m * scale) :
    x.whole = if x.negative then -(m : Int) else m := by
  rw [whole, h, Nat.mul_div_cancel _ scale_pos]

/-- A number that is an integer, in units. -/
theorem toInt?_eq_some_iff : x.toInt? = some n ↔ x.isFinite = true ∧
    x.units = n.natAbs * scale ∧ (x.negative = decide (n < 0) ∨ n = 0) := by
  rw [toInt?, Option.ite_none_right_eq_some, Option.some.injEq, isWhole, Bool.and_eq_true,
    beq_iff_eq]
  constructor
  · rintro ⟨⟨hfinite, hrest⟩, hwhole⟩
    obtain ⟨m, hm⟩ := Nat.dvd_of_mod_eq_zero hrest
    rw [Nat.mul_comm] at hm
    rw [whole_eq hm] at hwhole
    have habs : n.natAbs = m := by split at hwhole <;> omega
    refine ⟨hfinite, habs ▸ hm, ?_⟩
    cases hneg : x.negative <;> simp [hneg] at hwhole <;> simp <;> omega
  · rintro ⟨hfinite, hunits, hsign⟩
    refine ⟨⟨hfinite, hunits ▸ Nat.mul_mod_left _ _⟩, ?_⟩
    rw [whole_eq hunits]
    rcases hsign with hneg | rfl
    · simp only [hneg, decide_eq_true_eq]
      split <;> omega
    · simp

/-- A number and an integer beyond the exact ones, on the same side. -/
structure Beyond (x : Number) (n : Int) : Prop where
  reach : exactReach ≤ n.natAbs
  side : x.negative = decide (n < 0)
  le : exactOrdinal ≤ x.ordinal.val
  le_top : x.ordinal.val ≤ topOrdinal

/-- A number is an integer, or both lie beyond the exact ones. -/
def Like (x : Number) (n : Int) : Prop := x.toInt? = some n ∨ x.Beyond n

/-- The number that an integer comes to; zero has two signs. -/
def StandsFor (x : Number) (n : Int) : Prop := x.eq (ofInt n) = true

theorem Like.toInt? (h : x.Like n) (hn : n.natAbs < exactReach) : x.toInt? = some n :=
  h.resolve_right fun hbeyond => Nat.not_lt.2 hbeyond.reach hn

/-- Rounding an integer to a number. -/
theorem like_ofUnits (hside : negative = decide (n < 0) ∨ n = 0) :
    (ofUnits negative (n.natAbs * scale) 1).Like n := by
  have hval : (ofUnits negative (n.natAbs * scale) 1).ordinal.val =
      nearestOrdinal (n.natAbs * scale) 1 := ordinal_mk' (Nat.min_le_left _ _)
  rcases Nat.lt_or_ge n.natAbs exactReach with hlt | hge
  · have hbelow : nearestOrdinal (n.natAbs * scale) 1 < exactOrdinal := by
      rwa [← nearestOrdinal_exactReach, nearestOrdinal_lt_iff hlt.le le_rfl]
    refine .inl (toInt?_eq_some_iff.2 ⟨?_, ?_, hside⟩)
    · rw [isFinite, hval, decide_eq_true_eq]
      exact hbelow.trans_le exactOrdinal_le_top
    · rw [units, hval, unitsOf_nearestOrdinal hlt.le]
  · refine .inr ⟨hge, hside.resolve_right ?_, ?_, ?_⟩
    · rintro rfl
      exact absurd hge (by decide)
    · rw [hval]
      exact exactOrdinal_le hge
    · rw [hval]
      exact Nat.min_le_left _ _

theorem Like.beyond (h : x.Like n) (hn : exactReach ≤ n.natAbs) : x.Beyond n := by
  rcases h with hint | hbeyond
  · obtain ⟨hfinite, hunits, hsign⟩ := toInt?_eq_some_iff.1 hint
    refine ⟨hn, hsign.resolve_right ?_, ?_, (of_decide_eq_true hfinite).le⟩
    · rintro rfl
      exact absurd hn (by decide)
    · rw [← strictMono_unitsOf.le_iff_le, unitsOf_exactOrdinal]
      exact (Nat.mul_le_mul_right _ hn).trans_eq hunits.symm
  · exact hbeyond

/-- Equal numbers differ in the sign of zero at most. -/
theorem ordinal_of_eq (h : x.eq y = true) :
    x.ordinal = y.ordinal ∧ (x.negative = y.negative ∨ x.ordinal.val = 0) := by
  simp only [eq, position, Bool.and_eq_true] at h
  have hposition := h.2
  rw [Fin.ext_iff]
  cases hx : x.negative <;> cases hy : y.negative <;> simp [hx, hy] at hposition ⊢ <;> omega

theorem Like.of_eq (h : y.Like n) (heq : x.eq y = true) : x.Like n := by
  obtain ⟨hordinal, hside⟩ := ordinal_of_eq heq
  rcases h with hint | hbeyond
  · obtain ⟨hfinite, hunits, hsign⟩ := toInt?_eq_some_iff.1 hint
    refine .inl (toInt?_eq_some_iff.2 ⟨?_, ?_, ?_⟩)
    · rwa [isFinite, hordinal]
    · rwa [units, hordinal]
    · rcases hside with hside | hzero
      · rwa [hside]
      · have hn : n.natAbs * scale = 0 := by
          rw [← hunits, units, ← hordinal, hzero]
          rfl
        exact .inr (Int.natAbs_eq_zero.1 ((Nat.mul_eq_zero.1 hn).resolve_right scale_pos.ne'))
  · have hne : x.ordinal.val ≠ 0 := by
      rw [hordinal]
      exact (Nat.lt_of_lt_of_le (by decide) hbeyond.le).ne'
    exact .inr ⟨hbeyond.reach, (hside.resolve_right hne).trans hbeyond.side,
      hordinal ▸ hbeyond.le, hordinal ▸ hbeyond.le_top⟩

theorem StandsFor.like (h : x.StandsFor n) : x.Like n :=
  (like_ofUnits (.inl rfl)).of_eq h

theorem isNaN_eq_false (h : x.ordinal.val ≤ topOrdinal) : x.isNaN = false :=
  decide_eq_false (Nat.not_lt.2 h)

theorem isInfinite_eq_false (h : x.isFinite = true) : x.isInfinite = false :=
  beq_false_of_ne (of_decide_eq_true h).ne

theorem Like.le_top (h : x.Like n) : x.ordinal.val ≤ topOrdinal := by
  rcases h with hint | hbeyond
  · exact (of_decide_eq_true (toInt?_eq_some_iff.1 hint).1).le
  · exact hbeyond.le_top

theorem toInt?_ofInt (hn : n.natAbs < exactReach) : (ofInt n).toInt? = some n :=
  (like_ofUnits (.inl rfl)).toInt? hn

theorem standsFor_ofInt (n : Int) : (ofInt n).StandsFor n := by
  have htop : (ofInt n).isNaN = false := isNaN_eq_false (like_ofUnits (.inl rfl)).le_top
  rw [StandsFor, eq, htop]
  simp

/-- Such a number is infinite, or else an integer on that side. -/
theorem Beyond.cases (h : x.Beyond n) :
    x.isInfinite = true ∨
      ∃ m : Nat, exactReach ≤ m ∧ x.toInt? = some (if n < 0 then -m else m : Int) := by
  rcases h.le_top.eq_or_lt with hinfinite | hfinite
  · exact .inl (beq_iff_eq.2 hinfinite)
  · obtain ⟨m, hm, hunits⟩ := exists_unitsOf_eq h.le
    refine .inr ⟨m, hm, toInt?_eq_some_iff.2 ⟨decide_eq_true hfinite, ?_, .inl ?_⟩⟩
    · rw [units, hunits]
      split <;> simp
    · have hpos : 0 < m := Nat.lt_of_lt_of_le (by decide) hm
      rw [h.side, decide_eq_decide]
      split <;> omega

/-! ## What such numbers do -/

theorem clampTo_of_toInt? {lo hi : Int} (h : x.toInt? = some n) :
    x.clampTo lo hi = Max.max lo (Min.min hi n) := by
  have hwhole : x.whole = n := Option.some.inj (Option.ite_none_right_eq_some.1 h).2
  have hfinite := (toInt?_eq_some_iff.1 h).1
  have hnan : x.isNaN = false := isNaN_eq_false (of_decide_eq_true hfinite).le
  rw [clampTo, hnan, isInfinite_eq_false hfinite, hwhole]
  rfl

/-- The whole part in a range of exact integers. -/
theorem Like.clampTo_eq {lo hi : Int} (h : x.Like n) (hlo : -(exactReach : Int) ≤ lo)
    (hle : lo ≤ hi) (hhi : hi ≤ exactReach) :
    x.clampTo lo hi = Max.max lo (Min.min hi n) := by
  rcases h with hint | hbeyond
  · exact clampTo_of_toInt? hint
  · have hreach := hbeyond.reach
    rcases hbeyond.cases with hinfinite | ⟨m, hm, hint⟩
    · rw [clampTo, isNaN_eq_false hbeyond.le_top, hinfinite, hbeyond.side]
      simp only [Bool.false_eq_true, if_false, if_true, decide_eq_true_eq]
      split <;> omega
    · rw [clampTo_of_toInt? hint]
      split <;> omega

theorem lt_iff_of_not_negative (hx : x.ordinal.val ≤ topOrdinal) (hy : y.ordinal.val ≤ topOrdinal)
    (hxn : x.negative = false) (hyn : y.negative = false) :
    x.lt y = true ↔ x.ordinal.val < y.ordinal.val := by
  rw [lt, isNaN_eq_false hx, isNaN_eq_false hy, position, position, hxn, hyn]
  simp

/-- Comparison of the distance from zero with exact counts. -/
theorem Like.lt_abs_iff {c : Nat} (h : x.Like n) (hc : c < exactReach) :
    (ofNat c).lt x.abs = true ↔ c < n.natAbs := by
  have hval : (ofNat c).ordinal.val = nearestOrdinal (c * scale) 1 :=
    ordinal_mk' (Nat.min_le_left _ _)
  have hlt : (ofNat c).lt x.abs = true ↔ (ofNat c).ordinal.val < x.ordinal.val :=
    lt_iff_of_not_negative (hval ▸ Nat.min_le_left _ _) h.le_top rfl rfl
  rw [hlt, hval]
  rcases h with hint | hbeyond
  · have hunits : unitsOf x.ordinal.val = n.natAbs * scale := (toInt?_eq_some_iff.1 hint).2.1
    rw [← strictMono_unitsOf.lt_iff_lt, unitsOf_nearestOrdinal hc.le, hunits,
      Nat.mul_lt_mul_right scale_pos]
  · refine iff_of_true (Nat.lt_of_lt_of_le ?_ hbeyond.le) (hc.trans_le hbeyond.reach)
    rwa [← nearestOrdinal_exactReach, nearestOrdinal_lt_iff hc.le le_rfl]

theorem trunc_of_toInt? (h : x.toInt? = some n) : x.trunc = x := by
  obtain ⟨hfinite, hunits, -⟩ := toInt?_eq_some_iff.1 h
  have hwhole : x.units / scale * scale = unitsOf x.ordinal.val := by
    rw [hunits, Nat.mul_div_cancel _ scale_pos, ← hunits, units]
  rw [trunc, toWhole, if_pos hfinite, hwhole, ofUnits,
    nearestOrdinal_unitsOf (of_decide_eq_true hfinite).le]
  exact congrArg (Number.mk x.negative) (Fin.ext (Nat.mod_eq_of_lt x.ordinal.isLt))

/-- They have no fraction. -/
theorem Like.trunc_eq (h : x.Like n) : x.trunc = x := by
  rcases h with hint | hbeyond
  · exact trunc_of_toInt? hint
  · rcases hbeyond.cases with hinfinite | ⟨m, -, hint⟩
    · have hfinite : x.isFinite = false := decide_eq_false (beq_iff_eq.1 hinfinite).not_lt
      rw [trunc, toWhole, hfinite]
      rfl
    · exact trunc_of_toInt? hint

theorem Like.neg (h : x.Like n) : x.neg.Like (-n) := by
  have hside (hn : n ≠ 0) : (!decide (n < 0)) = decide (-n < 0) := by
    rw [Bool.eq_iff_iff]
    simp
    omega
  rcases h with hint | hbeyond
  · obtain ⟨hfinite, hunits, hsign⟩ := toInt?_eq_some_iff.1 hint
    refine .inl (toInt?_eq_some_iff.2 ⟨hfinite, (Int.natAbs_neg n).symm ▸ hunits, ?_⟩)
    by_cases hzero : n = 0
    · exact .inr (neg_eq_zero.2 hzero)
    · exact .inl ((congrArg not (hsign.resolve_right hzero)).trans (hside hzero))
  · have hzero : n ≠ 0 := by
      rintro rfl
      exact absurd hbeyond.reach (by decide)
    exact .inr ⟨(Int.natAbs_neg n).symm ▸ hbeyond.reach,
      (congrArg not hbeyond.side).trans (hside hzero), hbeyond.le, hbeyond.le_top⟩

theorem mul_of_toInt? {k : Int} (hx : x.toInt? = some n) (hy : y.toInt? = some k) :
    (x.mul y).Like (n * k) := by
  obtain ⟨hxf, hxu, hxs⟩ := toInt?_eq_some_iff.1 hx
  obtain ⟨hyf, hyu, hys⟩ := toInt?_eq_some_iff.1 hy
  have hround : nearestOrdinal (x.units * y.units) scale =
      nearestOrdinal ((n * k).natAbs * scale) 1 := by
    rw [hxu, hyu, Int.natAbs_mul, ← nearestOrdinal_mul scale_pos, Nat.mul_mul_mul_comm,
      ← Nat.mul_assoc]
  have hprod : x.mul y =
      ofUnits (x.negative != y.negative) ((n * k).natAbs * scale) 1 := by
    rw [mul, strict, isNaN_eq_false (of_decide_eq_true hxf).le,
      isNaN_eq_false (of_decide_eq_true hyf).le]
    simp only [isInfinite_eq_false hxf, isInfinite_eq_false hyf, Bool.or_false, Bool.false_eq_true,
      if_false, ofUnits, hround]
  rw [hprod]
  refine like_ofUnits ?_
  by_cases hzero : n * k = 0
  · exact .inr hzero
  · obtain ⟨hn, hk⟩ := mul_ne_zero_iff.1 hzero
    rw [hxs.resolve_right hn, hys.resolve_right hk]
    refine .inl (Bool.eq_iff_iff.2 ?_)
    simp [mul_neg_iff]
    omega

theorem mul_of_isInfinite (hx : x.isInfinite = true) (hy : y.isFinite = true)
    (hzero : y.isZero = false) : x.mul y = infinity (x.negative != y.negative) := by
  have htop := beq_iff_eq.1 hx
  have hne : x.isZero = false := by
    rw [isZero, htop]
    decide
  rw [mul, strict, isNaN_eq_false htop.le, isNaN_eq_false (of_decide_eq_true hy).le]
  simp [hx, hzero, hne]

theorem toInt?_ofNat {k : Nat} (hk : k < exactReach) : (ofNat k).toInt? = some (k : Int) :=
  (like_ofUnits (n := k) (.inl (by simp))).toInt? hk

/-- Products with small counts. -/
theorem Like.mul_ofNat {k : Nat} (h : x.Like n) (hpos : 0 < k) (hk : k < exactReach) :
    (x.mul (ofNat k)).Like (n * k) := by
  have hcount := toInt?_ofNat hk
  rcases h with hint | hbeyond
  · exact mul_of_toInt? hint hcount
  · have hreach : exactReach ≤ (n * k).natAbs := by
      rw [Int.natAbs_mul]
      exact hbeyond.reach.trans (Nat.le_mul_of_pos_right _ hpos)
    have hside : decide (n < 0) = decide (n * k < 0) := by
      rw [decide_eq_decide, Int.mul_neg_iff]
      omega
    rcases hbeyond.cases with hinfinite | ⟨m, hm, hint⟩
    · have hzero : (ofNat k).isZero = false := by
        refine beq_false_of_ne fun hzero => ?_
        have hunits := (toInt?_eq_some_iff.1 hcount).2.1
        rw [units, hzero] at hunits
        exact absurd hunits.symm (Nat.mul_pos hpos scale_pos).ne'
      have hprod : x.mul (ofNat k) = infinity (decide (n < 0)) := by
        rw [mul_of_isInfinite hinfinite (toInt?_eq_some_iff.1 hcount).1 hzero, hbeyond.side]
        exact congrArg infinity (Bool.xor_false _)
      rw [hprod]
      exact .inr ⟨hreach, hside, exactOrdinal_le_top, le_rfl⟩
    · have hlarge : exactReach ≤ ((if n < 0 then -m else m : Int) * k).natAbs := by
        rw [Int.natAbs_mul]
        refine le_trans ?_ (Nat.le_mul_of_pos_right _ hpos)
        split <;> omega
      have hprod := (mul_of_toInt? hint hcount).beyond hlarge
      refine .inr ⟨hreach, hprod.side.trans ?_, hprod.le, hprod.le_top⟩
      rw [← hside, decide_eq_decide, Int.mul_neg_iff]
      split <;> omega

end Formulary.Number
