/-
  Texts that stand in other texts.

  `contains` and `countIf` look for the lower case of one text in the lower case of another.
  A character has one lower case wherever it stands, but for the capital sigma: at the end of a
  word it becomes another letter than inside one.  So a text that ends in a sigma, say, is not
  found where the word goes on.

  * `Text.occurs_iff`: a text occurs in another if it is a run of its characters;
  * `Text.lowerBetween`: the lower case of a part of a text;
  * `Text.lowerBetween_eq_iff`: it depends on what stands around the part exactly as far as the
    forms of its sigmas do;
  * `Text.Settled`: the form of a sigma that nothing around the text can change;
  * `Functions.found_everywhere_iff`: which texts are found wherever they stand.
-/
import Formulary.Proofs.Applied
import Mathlib

namespace Formulary

namespace Text

variable {before before' after after' s t u v part text : List Char} {c : Char}

/-! ## Runs of characters -/

theorem occurs_iff : occurs part text = true ↔ part <:+: text := by
  induction text with
  | nil => rw [occurs, List.isEmpty_iff, List.infix_nil]
  | cons c rest ih =>
    rw [occurs, Bool.or_eq_true, ih, List.isPrefixOf_iff_prefix, List.infix_cons_iff]

/-- In a text with one more character at the end, a text that is one shorter is found in front
of that character, or ends with it. -/
theorem infix_concat (h : s <:+: t ++ [c]) (hlength : s.length = t.length) :
    s = t ∨ s.getLast? = some c := by
  obtain ⟨u, v, heq⟩ := h
  have hcount := congrArg List.length heq
  simp only [List.length_append, List.length_singleton] at hcount
  rcases List.eq_nil_or_concat v with rfl | ⟨v, x, rfl⟩
  · rcases List.eq_nil_or_concat s with rfl | ⟨s, y, rfl⟩
    · exact .inl (List.length_eq_zero_iff.1 hlength.symm).symm
    · rw [List.append_nil, List.concat_eq_append, ← List.append_assoc] at heq
      obtain ⟨-, hlast⟩ := List.append_inj' heq rfl
      rw [List.concat_eq_append, List.getLast?_concat]
      exact .inr (congrArg List.head? hlast)
  · rw [List.concat_eq_append, List.length_append, List.length_singleton] at hcount
    obtain rfl : u = [] := List.length_eq_zero_iff.1 (by omega)
    obtain rfl : v = [] := List.length_eq_zero_iff.1 (by omega)
    exact .inl (List.append_inj heq hlength).1

/-- The same with one more character in front. -/
theorem infix_cons (h : s <:+: c :: t) (hlength : s.length = t.length) :
    s = t ∨ s.head? = some c := by
  have hreverse : s.reverse <:+: t.reverse ++ [c] := by
    rw [← List.reverse_cons]
    exact List.reverse_infix.2 h
  have hcases := infix_concat hreverse (by rw [List.length_reverse, List.length_reverse, hlength])
  rwa [List.getLast?_reverse, List.reverse_inj] at hcases

/-! ## Sigmas -/

/-- The capital letter whose lower case depends on its place. -/
def sigma : Char := '\u03A3'

/-- Whether a sigma ends a word between the text before it, nearest character first, and the
text after it. -/
def endsWord (before after : List Char) : Bool := leadsToCased before && !leadsToCased after

/-- Whether what stands next to a sigma tells something: all that is passed over is
case-ignorable. -/
def isTelling (s : List Char) : Bool := s.any fun c => !isCaseIgnorable c

/-- Nothing around a text changes the form of a sigma in it, which stands between these parts
of the text: what comes before it is known not to be a letter, what comes after it is known to
be one, or both are known. -/
def Settled (before after : List Char) : Prop :=
  isTelling before = true ∧ leadsToCased before = false ∨ leadsToCased after = true ∨
    isTelling before = true ∧ isTelling after = true

theorem leadsToCased_cons (h : isCaseIgnorable c = false) (s : List Char) :
    leadsToCased (c :: s) = isCased c := by
  rw [leadsToCased, List.dropWhile_cons_of_neg (Bool.eq_false_iff.1 h)]

/-- The letters that the examples below put around a sigma. -/
theorem leadsToCased_examples (hc : c = 'Α' ∨ c = 'Β') (s : List Char) :
    leadsToCased (c :: s) = true := by
  have hignorable : isCaseIgnorable c = false := by
    rw [isCaseIgnorable, within_eq]
    rcases hc with rfl | rfl <;> decide +kernel
  rw [leadsToCased_cons hignorable, isCased, within_eq]
  rcases hc with rfl | rfl <;> decide +kernel

theorem leadsToCased_append (s t : List Char) :
    leadsToCased (s ++ t) = if isTelling s then leadsToCased s else leadsToCased t := by
  unfold leadsToCased isTelling
  induction s with
  | nil => rfl
  | cons c rest ih => by_cases hc : isCaseIgnorable c = true <;> simp_all

theorem isTelling_of_leadsToCased (h : leadsToCased s = true) : isTelling s = true := by
  by_contra hs
  have happend := leadsToCased_append s []
  rw [if_neg hs, List.append_nil, h] at happend
  exact absurd happend (by decide)

/-- What is settled is as it would be in the text alone. -/
theorem Settled.endsWord_eq (h : Settled before after) (before' after' : List Char) :
    endsWord (before ++ before') (after ++ after') = endsWord before after := by
  unfold endsWord
  rw [leadsToCased_append, leadsToCased_append]
  rcases h with ⟨hbefore, hcased⟩ | hafter | ⟨hbefore, hafter⟩
  · simp [hbefore, hcased]
  · simp [hafter, isTelling_of_leadsToCased hafter]
  · simp [hbefore, hafter]

/-- A letter behind a text or in front of it changes the form of a sigma that is not settled.
The letter stands next to the sigma but for what is case-ignorable. -/
theorem exists_endsWord_ne (h : ¬ Settled before after) (hcased : leadsToCased [c] = true) :
    isTelling after = false ∧ endsWord before (after ++ [c]) ≠ endsWord before after ∨
      isTelling before = false ∧ endsWord (before ++ [c]) after ≠ endsWord before after := by
  unfold Settled at h
  push Not at h
  obtain ⟨hbefore, hafter, hboth⟩ := h
  replace hafter := Bool.eq_false_of_not_eq_true hafter
  unfold endsWord
  rw [leadsToCased_append, leadsToCased_append, hcased, hafter]
  cases htelling : isTelling before with
  | true =>
    have hsilent : isTelling after = false := by simpa using hboth htelling
    refine .inl ⟨hsilent, ?_⟩
    simpa [hsilent] using hbefore htelling
  | false =>
    have hnot : leadsToCased before = false :=
      Bool.eq_false_iff.2 fun hcased => by simp [isTelling_of_leadsToCased hcased] at htelling
    refine .inr ⟨rfl, ?_⟩
    simp [hnot]

/-! ## Lower case of parts -/

/-- The lower case of a text between the text before it, nearest character first, and the text
after it. -/
def lowerBetween (before : List Char) : List Char → List Char → List Char
  | [], _ => []
  | c :: rest, after =>
    lowerChar before c (rest ++ after) ++ lowerBetween (c :: before) rest after

theorem lowerFrom_append (before s t : List Char) :
    lowerFrom before (s ++ t) =
      lowerBetween before s t ++ lowerFrom (s.reverse ++ before) t := by
  induction s generalizing before with
  | nil => rfl
  | cons c rest ih =>
    rw [List.cons_append, lowerFrom, lowerBetween, ih, List.append_assoc, List.reverse_cons,
      List.append_assoc, List.singleton_append]

/-- A text alone has nothing around it. -/
theorem lowerFrom_eq (before s : List Char) : lowerFrom before s = lowerBetween before s [] := by
  have happend := lowerFrom_append before s []
  rwa [List.append_nil, lowerFrom, List.append_nil] at happend

theorem lowerChar_sigma (before after : List Char) :
    lowerChar before sigma after =
      [if endsWord before after then '\u03C2' else '\u03C3'] := rfl

theorem lowerChar_of_ne (hc : c ≠ sigma) (before after before' after' : List Char) :
    lowerChar before c after = lowerChar before' c after' := by
  unfold lowerChar
  rw [if_neg (show ¬ c = '\u03A3' from hc), if_neg (show ¬ c = '\u03A3' from hc)]

theorem lowerChar_eq_iff : lowerChar before c after = lowerChar before' c after' ↔
    (c = sigma → endsWord before after = endsWord before' after') := by
  by_cases hc : c = sigma
  · subst hc
    rw [lowerChar_sigma, lowerChar_sigma]
    cases endsWord before after <;> cases endsWord before' after' <;> decide
  · exact iff_of_true (lowerChar_of_ne hc ..) fun h => absurd h hc

theorem length_lowerChar (before after before' after' : List Char) (c : Char) :
    (lowerChar before c after).length = (lowerChar before' c after').length := by
  by_cases hc : c = sigma
  · rw [hc]
    rfl
  · rw [lowerChar_of_ne hc]

theorem length_lowerBetween (before after before' after' s : List Char) :
    (lowerBetween before s after).length = (lowerBetween before' s after').length := by
  induction s generalizing before before' with
  | nil => rfl
  | cons c rest ih =>
    rw [lowerBetween, lowerBetween, List.length_append, List.length_append, ih _ (c :: before'),
      length_lowerChar]

/-- A part of a text has the same lower case in two places exactly if each of its sigmas has
the same form. -/
theorem lowerBetween_eq_iff : lowerBetween before s after = lowerBetween before' s after' ↔
    ∀ u v, s = u ++ sigma :: v → endsWord (u.reverse ++ before) (v ++ after) =
      endsWord (u.reverse ++ before') (v ++ after') := by
  induction s generalizing before before' with
  | nil => exact iff_of_true rfl fun u v h => absurd h (by simp)
  | cons c rest ih =>
    have hlength := length_lowerChar before (rest ++ after) before' (rest ++ after') c
    rw [lowerBetween, lowerBetween, List.append_eq_append_iff_of_size_eq_left hlength,
      lowerChar_eq_iff, ih]
    constructor
    · rintro ⟨hfirst, hrest⟩ u v heq
      cases u with
      | nil =>
        obtain ⟨rfl, rfl⟩ := List.cons.inj heq
        exact hfirst rfl
      | cons x u =>
        obtain ⟨rfl, rfl⟩ := List.cons.inj heq
        simpa using hrest u v rfl
    · intro h
      refine ⟨fun hc => h [] rest (by rw [hc, List.nil_append]), fun u v heq => ?_⟩
      simpa using h (c :: u) v (by rw [heq, List.cons_append])

/-- The lower case of a text holds that of each part of it, between what stands around the
part. -/
theorem lowerFrom_part (before part after : List Char) :
    ∃ u v, lowerFrom [] (before ++ part ++ after) =
      u ++ lowerBetween before.reverse part after ++ v := by
  refine ⟨lowerBetween [] before (part ++ after),
    lowerFrom (part.reverse ++ before.reverse) after, ?_⟩
  rw [List.append_assoc, lowerFrom_append, lowerFrom_append, List.append_nil, List.append_assoc]

/-! ## A letter more -/

/-- A letter that is its own lower case, and that of no case-ignorable character. -/
def letter : Char := 'a'

theorem lowerSteps_above :
    lowerSteps.all (fun (first, _, _, offset) => letter.toNat < first + offset) = true := by
  decide +kernel

theorem shift_ne_letter (hc : 128 ≤ c.toNat) : shift lowerSteps c ≠ letter := by
  intro h
  unfold shift at h
  split at h
  next first last step offset hfind =>
    have hrun := Array.all_eq_true'.1 lowerSteps_above _ (Array.mem_of_find?_eq_some hfind)
    have hwithin := Array.find?_some hfind
    simp only [Bool.and_eq_true, decide_eq_true_eq] at hrun hwithin
    have hcode := congrArg Char.toNat h
    rw [Char.toNat_ofNat] at hcode
    have hletter : letter.toNat = 97 := rfl
    split at hcode <;> omega
  next =>
    have hletter : letter.toNat = 97 := rfl
    rw [h] at hc
    omega

theorem eq_of_toLower : ∀ n < 128, (Char.ofNat n).toLower = letter →
    Char.ofNat n = 'a' ∨ Char.ofNat n = 'A' := by
  decide +kernel

theorem letter_not_mem_lowerChar (hc : isCaseIgnorable c = true) :
    letter ∉ lowerChar before c after := by
  have hsmall : isCaseIgnorable 'a' = false := by cbv
  have hcapital : isCaseIgnorable 'A' = false := by cbv
  unfold lowerChar
  split
  next hascii =>
    intro hmem
    have hlower := eq_of_toLower c.toNat hascii
    rw [Char.ofNat_toNat] at hlower
    rcases hlower (List.mem_singleton.1 hmem).symm with rfl | rfl
    · exact absurd (hsmall.symm.trans hc) Bool.false_ne_true
    · exact absurd (hcapital.symm.trans hc) Bool.false_ne_true
  next hascii =>
    have hshift := shift_ne_letter (Nat.le_of_not_lt hascii)
    split
    · decide
    · split
      · cases leadsToCased before && !leadsToCased after <;> decide
      · simpa using hshift.symm

theorem letter_not_mem_lowerBetween (hs : isTelling s = false) :
    letter ∉ lowerBetween before s after := by
  induction s generalizing before with
  | nil => simp [lowerBetween]
  | cons c rest ih =>
    simp only [isTelling, List.any_cons, Bool.or_eq_false_iff, Bool.not_eq_false'] at hs
    rw [lowerBetween, List.mem_append, not_or]
    exact ⟨letter_not_mem_lowerChar hs.1, ih hs.2⟩

theorem letter_not_mem_sigma : letter ∉ lowerChar before sigma after := by
  rw [lowerChar_sigma]
  cases endsWord before after <;> decide

theorem lowerFrom_sigma (before u v : List Char) :
    lowerFrom before (u ++ sigma :: v) = lowerBetween before u (sigma :: v) ++
      lowerChar (u.reverse ++ before) sigma v ++
      lowerBetween (sigma :: (u.reverse ++ before)) v [] := by
  rw [lowerFrom_append, lowerFrom, lowerFrom_eq, List.append_assoc]

theorem getLast?_ne_letter (hv : isTelling v = false) :
    (lowerFrom before (u ++ sigma :: v)).getLast? ≠ some letter := by
  intro h
  rw [lowerFrom_sigma, List.append_assoc,
    List.getLast?_append_of_ne_nil _ (by simp [lowerChar_sigma])] at h
  rcases List.mem_append.1 (List.mem_of_getLast? h) with hmem | hmem
  · exact letter_not_mem_sigma hmem
  · exact letter_not_mem_lowerBetween hv hmem

theorem head?_ne_letter (hu : isTelling u = false) :
    (lowerFrom before (u ++ sigma :: v)).head? ≠ some letter := by
  intro h
  rw [lowerFrom_sigma, List.head?_append_of_ne_nil _ (by simp [lowerChar_sigma])] at h
  rcases List.mem_append.1 (List.mem_of_head? h) with hmem | hmem
  · exact letter_not_mem_lowerBetween hu hmem
  · exact letter_not_mem_sigma hmem

/-- Where a sigma is not settled, the text can stand where its lower case does not occur. -/
theorem exists_not_infix (hs : s = u ++ sigma :: v) (h : ¬ Settled u.reverse v) :
    ∃ before after, ¬ lowerFrom [] s <:+: lowerFrom [] (before ++ s ++ after) := by
  have hcased : leadsToCased [letter] = true := by cbv
  have hletter (before : List Char) : lowerFrom before [letter] = [letter] := rfl
  rcases exists_endsWord_ne h hcased with ⟨hsilent, hne⟩ | ⟨hsilent, hne⟩
  · refine ⟨[], [letter], fun hinfix => ?_⟩
    rw [List.nil_append, lowerFrom_append, hletter, lowerFrom_eq] at hinfix
    rcases infix_concat hinfix (length_lowerBetween ..) with heq | hlast
    · have hform := lowerBetween_eq_iff.1 heq u v hs
      rw [List.append_nil, List.append_nil] at hform
      exact hne hform.symm
    · rw [← lowerFrom_eq, hs] at hlast
      exact getLast?_ne_letter hsilent hlast
  · refine ⟨[letter], [], fun hinfix => ?_⟩
    rw [List.append_nil, lowerFrom_append] at hinfix
    have hfront : lowerBetween [] [letter] s = [letter] := rfl
    rw [hfront, List.singleton_append, lowerFrom_eq, lowerFrom_eq] at hinfix
    rcases infix_cons hinfix (length_lowerBetween ..) with heq | hfirst
    · have hform := lowerBetween_eq_iff.1 heq u v hs
      rw [List.append_nil, List.append_nil] at hform
      exact hne hform.symm
    · rw [← lowerFrom_eq, hs] at hfirst
      refine head?_ne_letter ?_ hfirst
      rwa [isTelling, List.any_reverse] at hsilent

end Text

namespace Functions

open Text

/-! ## Functions that look for texts -/

theorem containsText_iff {whole part : String} : containsText whole part = true ↔
    lowerFrom [] part.toList <:+: lowerFrom [] whole.toList := by
  rw [containsText, occurs_iff, lower, lower, String.toList_ofList, String.toList_ofList]

/-- Both functions that look for a text find it in another, or both do not. -/
def Finds (found : Bool) (part whole : String) : Prop :=
  Makes "contains" [.text whole, .text part] (.ok (.boolean found)) ∧
    Makes "countIf" [.array [.text whole], .text part] (.ok (.count (if found then 1 else 0)))

theorem makes_contains (whole part : String) :
    Makes "contains" [.text whole, .text part] (.ok (.boolean (containsText whole part))) := by
  have hmem : containsFunction ∈ texts := by simp [texts]
  refine makes_two (f := containsFunction) (mem_catalog_of_mem_texts hmem) ?_
  intro a b σ answer s s₁ s' ha hb
  refine (Evaluation.run_bind_of_ok ha _).trans ?_
  exact Evaluation.run_bind_of_ok (Argument.run_text hb "contains") _

/-- What `countIf` makes of a criterion that is a value: it is no lambda. -/
theorem makes_countIf (items : List Value) (criterion : Value) :
    Makes "countIf" [.array items, criterion]
      (.ok (.count (items.countP fun item => meets item criterion))) := by
  have hmem : countIfFunction ∈ collections := by simp [collections]
  intro setting depth scope args σ answer s s' hargs
  rw [← Expr.values_arguments] at hargs
  obtain ⟨a, b, s₁, hsplit, ha, hb⟩ := Argument.run_values_two.1 hargs
  match args, hsplit with
  | [e, e'], hsplit =>
    obtain ⟨rfl, hrest⟩ := List.cons.inj hsplit
    obtain ⟨rfl, -⟩ := List.cons.inj hrest
    have hdepth : depth < setting.limit := Nat.lt_of_succ_lt (Expr.depth_lt_of_run_eval ha)
    have hcall (given : List Argument) :
        call setting.clock "countIf" given = countIfFunction.apply given :=
      call_name (mem_catalog_of_mem_collections hmem setting.clock) given
    rw [Expr.eval_call hdepth, hcall]
    simp only [countIfFunction, Builtin.two, Expr.arguments, Expr.lambda?_of_run_eval hb,
      Option.isSome_none, Bool.false_eq_true, if_false]
    refine (Evaluation.run_bind_of_ok (Argument.run_collection ha "countIf") _).trans ?_
    exact Evaluation.run_bind_of_ok hb _

theorem makes_finds (whole part : String) : Finds (containsText whole part) part whole := by
  refine ⟨makes_contains whole part, ?_⟩
  have hcount : [Value.text whole].countP (fun item => meets item (.text part)) =
      if containsText whole part then 1 else 0 := List.countP_singleton
  exact hcount ▸ makes_countIf _ _

theorem finds_iff {found : Bool} {part whole : String} :
    Finds found part whole ↔ containsText whole part = found := by
  constructor
  · intro h
    have heq := (makes_contains whole part).unique h.1
    simpa using heq
  · rintro rfl
    exact makes_finds whole part

/-- **Main result.** A text is found where each capital sigma in it has the form that it has in
the text alone.  There are places where the text stands and is not found exactly if a sigma in
it is not settled, so that what stands around the text can change its form. -/
theorem found_everywhere_iff (part : String) :
    (∀ before after : String,
      (∀ u v, part.toList = u ++ sigma :: v →
        endsWord (u.reverse ++ before.toList.reverse) (v ++ after.toList) =
          endsWord u.reverse v) →
      Finds true part (before ++ part ++ after)) ∧
    ((∃ before after : String, Finds false part (before ++ part ++ after)) ↔
      ∃ u v, part.toList = u ++ sigma :: v ∧ ¬ Settled u.reverse v) := by
  have hfound (before after : String)
      (h : ∀ u v, part.toList = u ++ sigma :: v →
        endsWord (u.reverse ++ before.toList.reverse) (v ++ after.toList) =
          endsWord u.reverse v) :
      Finds true part (before ++ part ++ after) := by
    obtain ⟨x, y, hlower⟩ := lowerFrom_part before.toList part.toList after.toList
    rw [finds_iff, containsText_iff, String.toList_append, String.toList_append, hlower]
    have hpart : lowerBetween before.toList.reverse part.toList after.toList =
        lowerFrom [] part.toList := by
      rw [lowerFrom_eq, lowerBetween_eq_iff]
      intro u v hsplit
      rw [h u v hsplit, List.append_nil, List.append_nil]
    exact ⟨x, y, by rw [hpart]⟩
  refine ⟨hfound, ?_, ?_⟩
  · rintro ⟨before, after, hmissed⟩
    by_contra hsettled
    push Not at hsettled
    have hall := hfound before after fun u v hsplit => (hsettled u v hsplit).endsWord_eq _ _
    rw [finds_iff] at hmissed hall
    exact absurd (hmissed.symm.trans hall) Bool.false_ne_true
  · rintro ⟨u, v, hsplit, hsettled⟩
    obtain ⟨before, after, hmissed⟩ := exists_not_infix hsplit hsettled
    refine ⟨.ofList before, .ofList after, ?_⟩
    rw [finds_iff, Bool.eq_false_iff, ne_eq, containsText_iff, String.toList_append,
      String.toList_append, String.toList_ofList, String.toList_ofList]
    exact hmissed

/-- Behind another letter the sigma still ends the word. -/
theorem found_alpha_sigma :
    (∀ u v, "ΑΣ".toList = u ++ sigma :: v →
      endsWord (u.reverse ++ "Β".toList.reverse) (v ++ "".toList) = endsWord u.reverse v) ∧
    Finds true "ΑΣ" ("Β" ++ "ΑΣ" ++ "") := by
  have hform (u v : List Char) (h : "ΑΣ".toList = u ++ sigma :: v) :
      endsWord (u.reverse ++ "Β".toList.reverse) (v ++ "".toList) = endsWord u.reverse v := by
    obtain ⟨rfl, rfl⟩ : u = ['Α'] ∧ v = [] := by
      match u, h with
      | [], h => exact absurd (List.cons.inj h).1 (by decide)
      | [x], h =>
        obtain ⟨rfl, hrest⟩ := List.cons.inj h
        exact ⟨rfl, (List.cons.inj hrest).2.symm⟩
      | x :: y :: rest, h => exact absurd (congrArg List.length h) (by simp)
    have hword (s : List Char) : endsWord ('Α' :: s) [] = true := by
      rw [endsWord, leadsToCased_examples (by decide)]
      rfl
    exact (hword "Β".toList.reverse).trans (hword []).symm
  exact ⟨hform, (found_everywhere_iff "ΑΣ").1 "Β" "" hform⟩

/-- The sigma ends the word in the first text, and not in the second one. -/
theorem not_found_alpha_sigma :
    "ΑΣ".toList <:+: "ΑΣΒ".toList ∧ Finds false "ΑΣ" "ΑΣΒ" := by
  have hends : endsWord ['Α'] [] = true := by
    rw [endsWord, leadsToCased_examples (by decide)]
    rfl
  have hgoes : endsWord ['Α'] ['Β'] = false := by
    rw [endsWord, leadsToCased_examples (by decide), leadsToCased_examples (by decide)]
    rfl
  have hpart : lowerFrom [] ['Α', sigma] = ['α', 'ς'] := by
    refine (lowerFrom_sigma [] ['Α'] []).trans ?_
    rw [lowerChar_sigma, List.append_nil, List.reverse_singleton, hends]
    decide +kernel
  have hwhole : lowerFrom [] ['Α', sigma, 'Β'] = ['α', 'σ', 'β'] := by
    refine (lowerFrom_sigma [] ['Α'] ['Β']).trans ?_
    rw [lowerChar_sigma, List.append_nil, List.reverse_singleton, hgoes]
    decide +kernel
  refine ⟨⟨[], ['Β'], rfl⟩, finds_iff.2 (Bool.eq_false_iff.2 fun h => ?_)⟩
  have hinfix : ['α', 'ς'] <:+: ['α', 'σ', 'β'] := hpart ▸ hwhole ▸ containsText_iff.1 h
  exact absurd hinfix (by decide)

end Functions
end Formulary
