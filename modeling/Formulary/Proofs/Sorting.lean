/-
  Arrays in order.

  `sort` compares numbers, texts and dates, each with their own kind, and by orders in which
  no two different values are equal.  So of the rearrangements of an array only one is in
  order, and this says all about what is sorted.  Values of different kinds would all compare
  as equal, but they are refused before.

  * `Number.totalKey`: the total order of numbers, by their bit patterns;
  * `Functions.NoLater`: the orders of the three kinds, with
    `Functions.Homogeneous.notAfter_iff`;
  * `Functions.sorted?_eq_ok_iff`: what is sorted, without the sorting;
  * `Functions.sort_total_order`: what `sort` makes of an array.
-/
import Formulary.Proofs.Applied
import Mathlib

namespace Formulary

/-! ## Orders of numbers and texts -/

namespace Number

/-- The bit that is set for negative numbers. -/
def signBit : UInt64 := 0x8000000000000000

/-- The key of a bit pattern in the total order of IEEE 754.  Patterns without the sign bit come
after those with it, which are in reverse. -/
def totalKey (x : Number) : UInt64 :=
  if x.toBits < signBit then x.toBits + signBit else ~~~x.toBits

theorem toNat_toBits (x : Number) :
    x.toBits.toNat = (if x.negative then 2 ^ 63 else 0) + x.ordinal.val := by
  have hordinal := x.ordinal.isLt
  rw [toBits, UInt64.toNat_ofNat', Nat.mod_eq_of_lt]
  split <;> omega

/-- The total order of bit patterns is that of ranks. -/
theorem toNat_totalKey (x : Number) : (x.totalKey.toNat : Int) = x.rank + 2 ^ 63 := by
  have hbits := x.toNat_toBits
  have hordinal := x.ordinal.isLt
  have hsign : signBit.toNat = 2 ^ 63 := rfl
  unfold totalKey rank
  cases hneg : x.negative with
  | true =>
    rw [hneg, if_pos rfl] at hbits
    have hge : ¬ x.toBits < signBit := by
      rw [UInt64.lt_iff_toNat_lt, hsign, hbits]
      omega
    rw [if_neg hge, if_pos rfl, UInt64.toNat_not, hbits]
    have hsize : UInt64.size = 2 ^ 64 := rfl
    omega
  | false =>
    rw [hneg, if_neg Bool.false_ne_true] at hbits
    have hlt : x.toBits < signBit := by
      rw [UInt64.lt_iff_toNat_lt, hsign, hbits]
      omega
    rw [if_pos hlt, if_neg Bool.false_ne_true, UInt64.toNat_add, hbits, hsign]
    omega

theorem totalKey_le_iff {x y : Number} : x.totalKey ≤ y.totalKey ↔ x.rank ≤ y.rank := by
  have hx := x.toNat_totalKey
  have hy := y.toNat_totalKey
  rw [UInt64.le_iff_toNat_le]
  omega

/-- No two numbers have one rank. -/
theorem rank_inj {x y : Number} (h : x.rank = y.rank) : x = y := by
  obtain ⟨negative, ordinal⟩ := x
  obtain ⟨negative', ordinal'⟩ := y
  cases negative <;> cases negative' <;> simp only [rank, Bool.false_eq_true, if_true, if_false] at h
  · exact congrArg _ (Fin.ext (by omega))
  · omega
  · omega
  · exact congrArg _ (Fin.ext (by omega))

end Number

/-- Lists are ordered by their first difference, and so are their images. -/
theorem map_lt_map_iff {α β : Type} [LT α] [LT β] {f : α → β} (hlt : ∀ a b, f a < f b ↔ a < b)
    (hinj : Function.Injective f) {xs ys : List α} : xs.map f < ys.map f ↔ xs < ys := by
  induction xs generalizing ys with
  | nil => cases ys <;> simp
  | cons x xs ih =>
    cases ys with
    | nil => simp
    | cons y ys => simp only [List.map_cons, List.cons_lt_cons_iff, hlt, hinj.eq_iff, ih]

/-- Texts are ordered by the codes of their characters. -/
theorem codes_le_iff {s t : String} :
    s.toList.map Char.toNat ≤ t.toList.map Char.toNat ↔ s ≤ t := by
  have hlt (c d : Char) : c.toNat < d.toNat ↔ c < d := by
    rw [Char.lt_def, UInt32.lt_iff_toNat_lt]
    rfl
  have hinj : Function.Injective Char.toNat := fun c d h => Char.toNat_inj.1 h
  rw [← not_lt, ← not_lt, map_lt_map_iff hlt hinj, String.lt_iff_toList_lt]

/-! ## Orders of values -/

namespace Functions

/-- Two values of one kind, the first of which may come first: numbers by the total order of
their bit patterns, texts by the codes of their characters, dates by time. -/
inductive NoLater : Value → Value → Prop
  | number {x y : Number} : x.totalKey ≤ y.totalKey → NoLater (.number x) (.number y)
  | text {s t : String} : s.toList.map Char.toNat ≤ t.toList.map Char.toNat →
      NoLater (.text s) (.text t)
  | date {s t : Instant} : s.seconds < t.seconds ∨ s.seconds = t.seconds ∧ s.nanos ≤ t.nanos →
      NoLater (.date s) (.date t)

namespace NoLater

variable {u v w : Value}

theorem trans (huv : NoLater u v) (hvw : NoLater v w) : NoLater u w := by
  cases huv with
  | number h => cases hvw with | number h' => exact .number (UInt64.le_trans h h')
  | text h => cases hvw with | text h' => exact .text (le_trans h h')
  | date h => cases hvw with | date h' => exact .date (by omega)

theorem antisymm (hvw : NoLater v w) (hwv : NoLater w v) : v = w := by
  cases hvw with
  | number h =>
    cases hwv with
    | number h' =>
      exact congrArg _ (Number.rank_inj (le_antisymm (Number.totalKey_le_iff.1 h)
        (Number.totalKey_le_iff.1 h')))
  | text h =>
    cases hwv with
    | text h' => exact congrArg _ (le_antisymm (codes_le_iff.1 h) (codes_le_iff.1 h'))
  | @date s t h =>
    cases hwv with
    | date h' =>
      obtain ⟨seconds, nanos⟩ := s
      obtain ⟨seconds', nanos'⟩ := t
      simp only [Value.date.injEq, Instant.mk.injEq] at h h' ⊢
      omega

end NoLater

/-- The values are all numbers, all texts or all dates. -/
def Homogeneous (items : List Value) : Prop :=
  (∀ v ∈ items, ∃ x, v = .number x) ∨ (∀ v ∈ items, ∃ s, v = .text s) ∨
    ∀ v ∈ items, ∃ t, v = .date t

variable {items items' : List Value} {v w : Value}

theorem Homogeneous.mono (h : Homogeneous items) (hmem : ∀ v ∈ items', v ∈ items) :
    Homogeneous items' :=
  h.imp (fun h v hv => h v (hmem v hv)) fun h =>
    h.imp (fun h v hv => h v (hmem v hv)) fun h v hv => h v (hmem v hv)

/-- Values with an order are all of the kind of the first one. -/
theorem homogeneous_cons_iff {first : Value} {rest : List Value} :
    Homogeneous (first :: rest) ↔
      ∀ v ∈ first :: rest, isSortable first = true ∧ v.kind = first.kind := by
  constructor
  · intro h v hv
    rcases h with h | h | h
    all_goals
      obtain ⟨a, rfl⟩ := h first List.mem_cons_self
      obtain ⟨b, rfl⟩ := h v hv
      exact ⟨rfl, rfl⟩
  · intro h
    have hsortable : isSortable first = true := (h first List.mem_cons_self).1
    cases first with
    | number x =>
      refine .inl fun v hv => ?_
      have hkind := (h v hv).2
      cases v <;> simp [Value.kind] at hkind ⊢
    | text s =>
      refine .inr (.inl fun v hv => ?_)
      have hkind := (h v hv).2
      cases v <;> simp [Value.kind] at hkind ⊢
    | date t =>
      refine .inr (.inr fun v hv => ?_)
      have hkind := (h v hv).2
      cases v <;> simp [Value.kind] at hkind ⊢
    | _ => exact absurd hsortable nofun

/-- On values of one kind the comparison is their order. -/
theorem Homogeneous.notAfter_iff (h : Homogeneous items) (hv : v ∈ items) (hw : w ∈ items) :
    notAfter v w = true ↔ NoLater v w := by
  rcases h with h | h | h
  · obtain ⟨x, rfl⟩ := h v hv
    obtain ⟨y, rfl⟩ := h w hw
    rw [notAfter, decide_eq_true_iff, ← Number.totalKey_le_iff]
    exact ⟨.number, fun | .number h => h⟩
  · obtain ⟨s, rfl⟩ := h v hv
    obtain ⟨t, rfl⟩ := h w hw
    rw [notAfter, decide_eq_true_iff, ← codes_le_iff]
    exact ⟨.text, fun | .text h => h⟩
  · obtain ⟨s, rfl⟩ := h v hv
    obtain ⟨t, rfl⟩ := h w hw
    have hle : notAfter (.date s) (.date t) = true ↔
        s.seconds < t.seconds ∨ s.seconds = t.seconds ∧ s.nanos ≤ t.nanos := by
      simp only [notAfter, Instant.lt, Bool.not_eq_true', Bool.or_eq_false_iff,
        Bool.and_eq_false_iff, decide_eq_false_iff_not, beq_eq_false_iff_ne]
      omega
    rw [hle]
    exact ⟨.date, fun | .date h => h⟩

/-- Any two of them can be put in order. -/
theorem Homogeneous.total (h : Homogeneous items) (hv : v ∈ items) (hw : w ∈ items) :
    NoLater v w ∨ NoLater w v := by
  rcases h with h | h | h
  · obtain ⟨x, rfl⟩ := h v hv
    obtain ⟨y, rfl⟩ := h w hw
    exact (UInt64.le_total _ _).imp .number .number
  · obtain ⟨s, rfl⟩ := h v hv
    obtain ⟨t, rfl⟩ := h w hw
    exact (le_total _ _).imp .text .text
  · obtain ⟨s, rfl⟩ := h v hv
    obtain ⟨t, rfl⟩ := h w hw
    rcases lt_trichotomy s.seconds t.seconds with hlt | heq | hgt
    · exact .inl (.date (.inl hlt))
    · exact (le_total s.nanos t.nanos).imp (fun hle => .date (.inr ⟨heq, hle⟩)) fun hle =>
        .date (.inr ⟨heq.symm, hle⟩)
    · exact .inr (.date (.inl hgt))

/-- Two values in the order of a direction. -/
def InOrder (ascending : Bool) (v w : Value) : Prop :=
  if ascending then NoLater v w else NoLater w v

namespace InOrder

variable {ascending : Bool} {u v w : Value}

theorem trans (huv : InOrder ascending u v) (hvw : InOrder ascending v w) :
    InOrder ascending u w := by
  cases ascending with
  | true => exact NoLater.trans huv hvw
  | false => exact NoLater.trans hvw huv

theorem antisymm (hvw : InOrder ascending v w) (hwv : InOrder ascending w v) : v = w := by
  cases ascending with
  | true => exact NoLater.antisymm hvw hwv
  | false => exact NoLater.antisymm hwv hvw

theorem swap (h : InOrder ascending v w) : InOrder (!ascending) w v := by
  cases ascending <;> exact h

end InOrder

/-! ## Sorted arrays -/

variable {ascending : Bool} {sorted : List Value}

/-- The comparison by which values are sorted in a direction. -/
def comparison (ascending : Bool) (v w : Value) : Bool :=
  if ascending then notAfter v w else notAfter w v

theorem Homogeneous.comparison_iff (h : Homogeneous items) (hv : v ∈ items) (hw : w ∈ items) :
    comparison ascending v w = true ↔ InOrder ascending v w := by
  cases ascending with
  | true => exact h.notAfter_iff hv hw
  | false => exact h.notAfter_iff hw hv

/-- A list is sorted in order, if the comparison orders its members. -/
theorem pairwise_mergeSort_of_mem {α : Type} {le : α → α → Bool} {l : List α}
    (htrans : ∀ a ∈ l, ∀ b ∈ l, ∀ c ∈ l, le a b = true → le b c = true → le a c = true)
    (htotal : ∀ a ∈ l, ∀ b ∈ l, (le a b || le b a) = true) :
    (l.mergeSort le).Pairwise fun a b => le a b = true := by
  let le' (a b : { a // a ∈ l }) : Bool := le a b
  have hmap : (l.attach.mergeSort le').map Subtype.val = l.mergeSort le := by
    rw [List.map_mergeSort (s := le) fun _ _ _ _ => rfl, List.attach_map_subtype_val]
  rw [← hmap, List.pairwise_map]
  exact List.pairwise_mergeSort (fun (a b c : { a // a ∈ l }) => htrans a a.2 b b.2 c c.2)
    (fun (a b : { a // a ∈ l }) => htotal a a.2 b b.2) _

theorem Homogeneous.pairwise_mergeSort (h : Homogeneous items) (ascending : Bool) :
    (items.mergeSort (comparison ascending)).Pairwise (InOrder ascending) := by
  have hsorted : (items.mergeSort (comparison ascending)).Pairwise fun v w =>
      comparison ascending v w = true := by
    refine pairwise_mergeSort_of_mem (fun u hu v hv w hw huv hvw => ?_) fun v hv w hw => ?_
    · rw [h.comparison_iff hu hv] at huv
      rw [h.comparison_iff hv hw] at hvw
      exact (h.comparison_iff hu hw).2 (huv.trans hvw)
    · rw [Bool.or_eq_true, h.comparison_iff hv hw, h.comparison_iff hw hv]
      cases ascending with
      | true => exact h.total hv hw
      | false => exact h.total hw hv
  refine hsorted.imp_of_mem fun {v w} hv hw hvw => ?_
  exact (h.comparison_iff (List.mem_mergeSort.1 hv) (List.mem_mergeSort.1 hw)).1 hvw

/-- Numbers, texts or dates alone are sorted. -/
theorem sorted?_of_homogeneous (h : Homogeneous items) :
    sorted? ascending items = .ok (items.mergeSort (comparison ascending)) := by
  cases items with
  | nil => rw [List.mergeSort_nil]; rfl
  | cons first rest =>
    have hfind : (first :: rest).find? (fun v => !isSortable first || v.kind != first.kind) =
        none := by
      rw [List.find?_eq_none]
      intro v hv
      obtain ⟨hsortable, hkind⟩ := homogeneous_cons_iff.1 h v hv
      simp [hsortable, hkind]
    simp only [sorted?, hfind]
    rfl

/-- All others are refused. -/
theorem sorted?_of_not_homogeneous (ascending : Bool) (h : ¬ Homogeneous items) :
    ∃ v ∈ items, ∃ w ∈ items, sorted? ascending items = .error (operandFault "sort" [v, w]) := by
  cases items with
  | nil => exact absurd (.inl fun _ hv => absurd hv List.not_mem_nil) h
  | cons first rest =>
    cases hfind : (first :: rest).find? fun v => !isSortable first || v.kind != first.kind with
    | none =>
      refine absurd (homogeneous_cons_iff.2 fun v hv => ?_) h
      simpa using List.find?_eq_none.1 hfind v hv
    | some odd =>
      refine ⟨first, List.mem_cons_self, odd, List.mem_of_find?_eq_some hfind, ?_⟩
      simp only [sorted?, hfind]

/-- What is sorted is the one rearrangement that is in order. -/
theorem sorted?_eq_ok_iff :
    sorted? ascending items = .ok sorted ↔
      Homogeneous items ∧ sorted.Perm items ∧ sorted.Pairwise (InOrder ascending) := by
  by_cases h : Homogeneous items
  · rw [sorted?_of_homogeneous h, Except.ok.injEq]
    have hperm := List.mergeSort_perm items (comparison ascending)
    have hsorted := h.pairwise_mergeSort ascending
    constructor
    · rintro rfl
      exact ⟨h, hperm, hsorted⟩
    · rintro ⟨-, hperm', hsorted'⟩
      exact List.Perm.eq_of_pairwise (fun v w _ _ => InOrder.antisymm) hsorted hsorted'
        (hperm.trans hperm'.symm)
  · obtain ⟨v, -, w, -, hfault⟩ := sorted?_of_not_homogeneous ascending h
    rw [hfault]
    exact ⟨nofun, fun h' => absurd h'.1 h⟩

/-- An array alone is sorted in ascending order. -/
theorem makes_sort (items : List Value) :
    Makes "sort" [.array items] ((sorted? true items).map .array) := by
  have hmem : sortFunction ∈ collections := by simp [collections]
  refine makes_one (f := sortFunction) (mem_catalog_of_mem_collections hmem) ?_
  intro a σ answer s s' ha
  refine (Evaluation.run_bind_of_ok (Argument.run_collection ha "sort") _).trans ?_
  exact Evaluation.run_ofResult _

/-- A second argument tells the direction. -/
theorem makes_sort_toward (items : List Value) (v : Value) :
    Makes "sort" [.array items, v] ((sorted? v.isTruthy items).map .array) := by
  have hmem : sortFunction ∈ collections := by simp [collections]
  refine makes_two (f := sortFunction) (mem_catalog_of_mem_collections hmem) ?_
  intro a b σ answer s s₁ s' ha hb
  refine (Evaluation.run_bind_of_ok (Argument.run_collection ha "sort") _).trans ?_
  exact (Evaluation.run_bind_of_ok hb _).trans (Evaluation.run_ofResult _)

/-- **Main result.** An array of numbers, of texts or of dates is sorted, and every other one is
refused as of the wrong kinds.  What is sorted is the array rearranged so that it is in order;
in the other direction it is this reversed; to sort it again leaves it as it is; and every
rearrangement of the array is sorted to the same.  This is what `sort` makes of an array, and
of an array and a value that is true for the ascending direction. -/
theorem sort_total_order (items : List Value) :
    Makes "sort" [.array items] ((sorted? true items).map .array) ∧
      (∀ v, Makes "sort" [.array items, v] ((sorted? v.isTruthy items).map .array)) ∧
      ∀ ascending,
        ((∃ sorted, sorted? ascending items = .ok sorted) ↔ Homogeneous items) ∧
        (¬ Homogeneous items →
          ∃ operands, sorted? ascending items = .error (.type "sort" operands)) ∧
        ∀ sorted, sorted? ascending items = .ok sorted →
          sorted.Perm items ∧ sorted.Pairwise (InOrder ascending) ∧
          sorted? (!ascending) items = .ok sorted.reverse ∧
          sorted? ascending sorted = .ok sorted ∧
          ∀ items' : List Value, items'.Perm items → sorted? ascending items' = .ok sorted := by
  refine ⟨makes_sort items, makes_sort_toward items, fun ascending => ⟨?_, fun h => ?_, ?_⟩⟩
  · exact ⟨fun ⟨sorted, h⟩ => (sorted?_eq_ok_iff.1 h).1, fun h => ⟨_, sorted?_of_homogeneous h⟩⟩
  · obtain ⟨v, -, w, -, hfault⟩ := sorted?_of_not_homogeneous ascending h
    exact ⟨_, hfault⟩
  · intro sorted h
    obtain ⟨hkind, hperm, hsorted⟩ := sorted?_eq_ok_iff.1 h
    have hrearranged (items' : List Value) (hperm' : items'.Perm items) :
        sorted? ascending items' = .ok sorted :=
      sorted?_eq_ok_iff.2 ⟨hkind.mono fun v => hperm'.mem_iff.1, hperm.trans hperm'.symm, hsorted⟩
    have hreverse : sorted? (!ascending) items = .ok sorted.reverse := by
      refine sorted?_eq_ok_iff.2 ⟨hkind, (List.reverse_perm sorted).trans hperm, ?_⟩
      exact List.pairwise_reverse.2 (hsorted.imp InOrder.swap)
    exact ⟨hperm, hsorted, hreverse, hrearranged sorted hperm, hrearranged⟩

end Functions
end Formulary
