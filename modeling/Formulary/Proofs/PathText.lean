/-
  Texts of paths.

  * `Path.IsPart`, `Segment.IsIndex`: what stands between two dots, and when it is an index;
  * `Path.Valid`: the paths that have a text;
  * `Path.ofText_eq_ok`: what a text denotes, by its parts;
  * `Path.ofText_text`: the text of a valid path denotes the path;
  * `Path.ofText_text_valid`: texts denote valid paths only, whose texts denote them again.
-/
import Mathlib
import Formulary.Path

namespace Formulary

/-! ## Parts of texts -/

/-- What stands between two dots of a path, or next to one. -/
structure Path.IsPart (part : List Char) : Prop where
  nonempty : part ≠ []
  trimmed : Text.Trimmed part
  dotless : '.' ∉ part

instance (part : List Char) : Decidable (Path.IsPart part) :=
  decidable_of_iff (part ≠ [] ∧ Text.Trimmed part ∧ '.' ∉ part)
    ⟨fun ⟨hne, htrimmed, hdot⟩ => ⟨hne, htrimmed, hdot⟩, fun h => ⟨h.1, h.2, h.3⟩⟩

/-- The pieces of a split do not contain what was split on. -/
theorem not_mem_of_mem_splitOn {c : Char} {s piece : List Char} (h : piece ∈ s.splitOn c) :
    c ∉ piece := by
  induction s generalizing piece with
  | nil =>
    rw [List.splitOn_nil, List.mem_singleton] at h
    exact h ▸ List.not_mem_nil
  | cons d s ih =>
    rw [List.splitOn_cons_eq_if_modifyHead] at h
    split at h
    · rcases List.mem_cons.1 h with rfl | h
      · exact List.not_mem_nil
      · exact ih h
    next hd =>
      obtain ⟨first, pieces, hsplit⟩ := List.exists_cons_of_ne_nil (List.splitOn_ne_nil c s)
      rw [hsplit, List.modifyHead_cons] at h
      rcases List.mem_cons.1 h with rfl | h
      · have hfirst : c ∉ first := ih (hsplit ▸ List.mem_cons_self)
        simp only [beq_iff_eq] at hd
        simp [hfirst, Ne.symm hd]
      · exact ih (hsplit ▸ List.mem_cons_of_mem _ h)

/-- Every part of a text that is not empty is one. -/
theorem Path.isPart_of_mem_parts {text : String} {part : List Char} (h : part ∈ parts text)
    (hne : part ≠ []) : IsPart part := by
  obtain ⟨piece, hpiece, rfl⟩ := List.mem_map.1 h
  refine ⟨hne, Text.trimmed_trim piece, fun hdot => ?_⟩
  exact not_mem_of_mem_splitOn hpiece ((Text.trim_sublist piece).mem hdot)

/-! ## Segments -/

namespace Segment

/-- Digits whose value is that of an index. -/
def IsIndex (part : List Char) : Prop :=
  part.all Char.isDigit = true ∧ Decimal.ofDigits part < indexBound

instance (part : List Char) : Decidable (IsIndex part) := by unfold IsIndex; infer_instance

/-- An index within the bound, or a key that is a part but no index. -/
def Valid : Segment → Prop
  | index n => n < indexBound
  | key name => Path.IsPart name.toList ∧ ¬ IsIndex name.toList

instance : DecidablePred Valid
  | index n => inferInstanceAs (Decidable (n < indexBound))
  | key name => inferInstanceAs (Decidable (Path.IsPart name.toList ∧ ¬ IsIndex name.toList))

theorem ofPart_eq (part : List Char) :
    ofPart part =
      if IsIndex part then index (Decimal.ofDigits part) else key (String.ofList part) := by
  simp [ofPart, IsIndex]

theorem valid_ofPart {part : List Char} (h : Path.IsPart part) : (ofPart part).Valid := by
  rw [ofPart_eq]
  split
  next hindex => exact hindex.2
  next hindex =>
    rw [Valid, String.toList_ofList]
    exact ⟨h, hindex⟩

theorem toList_text_index (n : Nat) : (index n).text.toList = Nat.toDigits 10 n :=
  String.toList_ofList

theorem isDigit_text_index (n : Nat) : ∀ c ∈ (index n).text.toList, c.isDigit = true := by
  intro c hc
  rw [toList_text_index] at hc
  exact Nat.isDigit_of_mem_toDigits (by decide) (by decide) hc

/-- The digits of an index have its value. -/
theorem isIndex_text {n : Nat} (h : n < indexBound) :
    IsIndex (index n).text.toList ∧ Decimal.ofDigits (index n).text.toList = n := by
  have hvalue : Decimal.ofDigits (index n).text.toList = n := by
    rw [toList_text_index]
    exact Nat.ofDigitChars_ten_toDigits
  refine ⟨⟨List.all_eq_true.2 (isDigit_text_index n), ?_⟩, hvalue⟩
  rwa [hvalue]

theorem isPart_text {segment : Segment} (h : segment.Valid) :
    Path.IsPart segment.text.toList := by
  cases segment with
  | index n =>
    have hblank : ∀ c ∈ (index n).text.toList, Text.isBlank c = false := fun c hc =>
      Text.not_isBlank_of (p := Char.isDigit) (by decide) (isDigit_text_index n c hc)
    refine ⟨?_, ⟨fun c hc => hblank c ?_, fun c hc => hblank c ?_⟩, fun hdot => ?_⟩
    · rw [toList_text_index]
      exact Nat.toDigits_ne_nil
    · exact List.mem_of_mem_head? hc
    · exact List.mem_of_getLast? hc
    · exact absurd (isDigit_text_index n '.' hdot) (by decide)
  | key name => exact h.1

/-- The text of a valid segment denotes it. -/
theorem ofPart_text {segment : Segment} (h : segment.Valid) :
    ofPart segment.text.toList = segment := by
  rw [ofPart_eq]
  cases segment with
  | index n =>
    obtain ⟨hindex, hvalue⟩ := isIndex_text h
    rw [if_pos hindex, hvalue]
  | key name =>
    rw [text, if_neg h.2, String.ofList_toList]

end Segment

/-! ## Paths -/

namespace Path

/-- The paths that have a text: of a root that is a part but no number, and valid segments. -/
structure Valid (path : Path) : Prop where
  root : IsPart path.root.toList
  named : path.root.toList.all Char.isDigit = false
  segments : ∀ segment ∈ path.segments, segment.Valid

instance (path : Path) : Decidable path.Valid :=
  decidable_of_iff (IsPart path.root.toList ∧ path.root.toList.all Char.isDigit = false ∧
      ∀ segment ∈ path.segments, segment.Valid)
    ⟨fun ⟨hroot, hnamed, hsegments⟩ => ⟨hroot, hnamed, hsegments⟩, fun h => ⟨h.1, h.2, h.3⟩⟩

theorem ofText_eq_ok {text : String} {path : Path} :
    ofText text = .ok path ↔
      ∃ root rest, parts text = root :: rest ∧ root ≠ [] ∧ root.all Char.isDigit = false ∧
        (∀ part ∈ rest, part ≠ []) ∧ path = ⟨String.ofList root, rest.map Segment.ofPart⟩ := by
  have hempty (rest : List (List Char)) :
      rest.any List.isEmpty = true ↔ ¬ ∀ part ∈ rest, part ≠ [] := by
    simp
  unfold ofText
  split
  next root rest hparts =>
    simp only [hparts, List.cons.injEq, Bool.or_eq_true, List.isEmpty_iff, hempty]
    constructor
    · intro h
      split at h
      · cases h
      next hroot =>
        split at h
        · cases h
        next hrest =>
          obtain ⟨hne, hnamed⟩ := not_or.1 hroot
          exact ⟨root, rest, ⟨rfl, rfl⟩, hne, Bool.eq_false_iff.2 hnamed, Classical.not_not.1 hrest,
            (Except.ok.inj h).symm⟩
    · rintro ⟨_, _, ⟨rfl, rfl⟩, hne, hnamed, hrest, rfl⟩
      rw [if_neg (not_or.2 ⟨hne, by simp [hnamed]⟩), if_neg (Classical.not_not.2 hrest)]
  next hparts => simp [hparts]

/-- Parts with dots between them are the parts of that text. -/
theorem parts_intercalate {pieces : List (List Char)} (hne : pieces ≠ [])
    (h : ∀ piece ∈ pieces, IsPart piece) :
    parts (".".intercalate (pieces.map String.ofList)) = pieces := by
  have hchars : (".".intercalate (pieces.map String.ofList)).toList = ['.'].intercalate pieces := by
    rw [String.toList_intercalate, List.map_map]
    simp [Function.comp_def]
  have htrim : ∀ piece ∈ pieces, Text.trim piece = id piece := fun piece hpiece =>
    Text.trim_eq_self_iff.2 (h piece hpiece).trimmed
  have hdotless : ∀ piece ∈ pieces, '.' ∉ piece := fun piece hpiece => (h piece hpiece).dotless
  rw [parts, hchars, List.splitOn_intercalate '.' hdotless hne, List.map_congr_left htrim,
    List.map_id]

/-- The text of parts with dots between them denotes the segments of the parts. -/
theorem ofText_intercalate {root : List Char} {rest : List (List Char)} (hroot : IsPart root)
    (hnamed : root.all Char.isDigit = false) (hrest : ∀ part ∈ rest, IsPart part) :
    ofText (".".intercalate ((root :: rest).map String.ofList)) =
      .ok ⟨String.ofList root, rest.map Segment.ofPart⟩ := by
  have hparts := parts_intercalate (List.cons_ne_nil root rest)
    (List.forall_mem_cons.2 ⟨hroot, hrest⟩)
  exact ofText_eq_ok.2 ⟨root, rest, hparts, hroot.nonempty, hnamed,
    fun part hpart => (hrest part hpart).nonempty, rfl⟩

/-- The text of a valid path denotes the path. -/
theorem ofText_text {path : Path} (h : path.Valid) : ofText path.text = .ok path := by
  obtain ⟨root, segments⟩ := path
  have htext : text ⟨root, segments⟩ = ".".intercalate
      ((root.toList :: segments.map fun segment => segment.text.toList).map String.ofList) := by
    simp [text, Function.comp_def]
  have hsegments :
      (segments.map fun segment => segment.text.toList).map Segment.ofPart = segments := by
    calc (segments.map fun segment => segment.text.toList).map Segment.ofPart
        = segments.map id := by
          rw [List.map_map]
          exact List.map_congr_left fun segment hsegment =>
            Segment.ofPart_text (h.segments segment hsegment)
      _ = segments := List.map_id _
  rw [htext, ofText_intercalate h.root h.named, hsegments, String.ofList_toList]
  exact List.forall_mem_map.2 fun segment hsegment =>
    Segment.isPart_text (h.segments segment hsegment)

/-- Texts denote valid paths only. -/
theorem valid_of_ofText {text : String} {path : Path} (h : ofText text = .ok path) :
    path.Valid := by
  obtain ⟨root, rest, hparts, hroot, hnamed, hrest, rfl⟩ := ofText_eq_ok.1 h
  have hpart {part : List Char} (hmem : part ∈ root :: rest) (hne : part ≠ []) : IsPart part :=
    isPart_of_mem_parts (hparts ▸ hmem) hne
  refine ⟨?_, ?_, fun segment hsegment => ?_⟩
  · rw [String.toList_ofList]
    exact hpart List.mem_cons_self hroot
  · rwa [String.toList_ofList]
  · obtain ⟨part, hmem, rfl⟩ := List.mem_map.1 hsegment
    exact Segment.valid_ofPart (hpart (List.mem_cons_of_mem _ hmem) (hrest part hmem))

/-- **Main result.** What a text denotes, its own text denotes again.  Texts denote the valid
paths and no other; of the parts of a text, those are indices whose digits, with any zeros in
front, have a value within the bound, and every other part is a key as it stands. -/
theorem ofText_text_valid :
    (∀ (text : String) (path : Path), ofText text = .ok path → ofText path.text = .ok path) ∧
      (∀ path : Path, (∃ text, ofText text = .ok path) ↔ path.Valid) ∧
      ∀ (root : List Char) (rest : List (List Char)), IsPart root →
        root.all Char.isDigit = false → (∀ part ∈ rest, IsPart part) →
          ofText (".".intercalate ((root :: rest).map String.ofList)) =
            .ok ⟨String.ofList root, rest.map fun part =>
              if Segment.IsIndex part then .index (Decimal.ofDigits part)
              else .key (String.ofList part)⟩ := by
  refine ⟨fun text path h => ofText_text (valid_of_ofText h), fun path => ⟨?_, ?_⟩, ?_⟩
  · rintro ⟨text, h⟩
    exact valid_of_ofText h
  · exact fun h => ⟨path.text, ofText_text h⟩
  · intro root rest hroot hnamed hrest
    rw [ofText_intercalate hroot hnamed hrest,
      List.map_congr_left fun part _ => Segment.ofPart_eq part]

/-- A path of an index with zeros in front, a key with a blank inside, digits beyond the bound
and digits after a sign: only the first of them is an index. -/
theorem ofText_text_valid_padded :
    let path : Path :=
      ⟨"a", [.index 7, .key "x y", .key "18446744073709551616", .key "+5"]⟩
    ofText " a .007.  x y. 18446744073709551616 .+5" = .ok path ∧
      path.text = "a.7.x y.18446744073709551616.+5" ∧ ofText path.text = .ok path ∧ path.Valid ∧
      IsPart ['a'] ∧ IsPart ['0', '7'] ∧
      ofText (".".intercalate (["a".toList, ['0', '7']].map String.ofList)) =
        .ok ⟨"a", [.index 7]⟩ := by
  intro path
  have h : ofText " a .007.  x y. 18446744073709551616 .+5" = .ok path := by cbv
  have hroot : IsPart ['a'] := by decide
  have hpart : IsPart ['0', '7'] := by decide
  refine ⟨h, by cbv, ofText_text_valid.1 _ _ h, (ofText_text_valid.2.1 _).1 ⟨_, h⟩, hroot, hpart,
    ofText_text_valid.2.2 ['a'] [['0', '7']] hroot (by decide) ?_⟩
  exact List.forall_mem_singleton.2 hpart

end Path
end Formulary
