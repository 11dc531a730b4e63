/-
  Tarjan's search for groups.

  The search numbers the fields as it enters them, and stacks those whose groups are not
  complete yet.  What it meets below a field may lead back to a field on the stack; if it
  leads to none with a lower number than the field itself, the group of the field is what
  lies above it on the stack.

  * `Graph.sweep`: the search, with the lowest number on the stack that it has met;
  * `Graph.Swept`: what it keeps: what is finished and not stacked leads only to such
    fields, and the groups found are those of the finished fields that are not stacked;
  * `Graph.outcome_sweep`: one search, by its recursion, against the forest of the fields it
    enters;
  * `Graph.components_eq_tarjan`: the groups of a set are those that the search along its
    users finds, the last one first;
  * `Graph.components_ordered_knots`: what the groups of a set are, and how they are ordered.
-/
import Formulary.Proofs.Listings
import Mathlib.Data.List.Sort
import Mathlib.Data.String.Basic

namespace Formulary.Graph

open Relation

/-! ## The search -/

/-- The state of a search: the fields not entered yet, how many were, those stacked with their
numbers, and the groups found, the last first. -/
structure Sweep where
  free : List String
  count : Nat
  stack : List (String × Nat)
  found : List (List String)

namespace Sweep

def stacked (s : Sweep) : List String := s.stack.map Prod.fst

/-- Numbers and stacks a field. -/
def enter (s : Sweep) (field : String) : Sweep :=
  { s with
    free := s.free.erase field
    count := s.count + 1
    stack := (field, s.count) :: s.stack }

/-- Takes the group of a field off the stack, if nothing lower was met below it. -/
def leave (s : Sweep) (field : String) (number low : Nat) : Sweep :=
  if low = number then
    { s with
      stack := (s.stack.dropWhile (·.1 != field)).tail
      found := ((s.stack.takeWhile (·.1 != field)).map Prod.fst ++ [field]) :: s.found }
  else s

/-- The lowest number met, when a field that was entered before is met again. -/
def meet (s : Sweep) (low : Nat) (field : String) : Nat :=
  (s.stack.lookup field).elim low (min low)

@[simp] theorem leave_free (s : Sweep) (field : String) (number low : Nat) :
    (s.leave field number low).free = s.free := by
  unfold leave
  split
  · rfl
  · rfl

theorem enter_lt {s : Sweep} {field : String} (h : field ∈ s.free) :
    (s.enter field).free.length < s.free.length := by
  have := List.length_erase_of_mem h
  have := List.length_pos_of_mem h
  simp only [enter]
  omega

/-- Once a field was entered there are fewer to enter. -/
theorem leave_lt {s : Sweep} {field : String} (h : field ∈ s.free)
    (r : { r : Nat × Sweep // r.2.free.length ≤ (s.enter field).free.length }) (number : Nat) :
    (r.1.2.leave field number r.1.1).free.length < s.free.length := by
  rw [leave_free]
  exact Nat.lt_of_le_of_lt r.2 (enter_lt h)

end Sweep

/-- The search from some fields on: the lowest number met, and the state afterwards. -/
def sweep (next : String → List String) (low : Nat) (s : Sweep) (fields : List String) :
    { r : Nat × Sweep // r.2.free.length ≤ s.free.length } :=
  match fields with
  | [] => ⟨(low, s), Nat.le_refl _⟩
  | field :: rest =>
    if h : field ∈ s.free then
      let inner := sweep next s.count (s.enter field) (next field)
      let later := sweep next (min low inner.1.1) (inner.1.2.leave field s.count inner.1.1) rest
      ⟨later.1, Nat.le_trans later.2 (Nat.le_of_lt (Sweep.leave_lt h inner s.count))⟩
    else sweep next (s.meet low field) s rest
termination_by (s.free.length, fields.length)
decreasing_by
  · exact Prod.Lex.left _ _ (Sweep.enter_lt h)
  · exact Prod.Lex.left _ _ (Sweep.leave_lt h inner s.count)
  · exact Prod.Lex.right _ (by simp)

/-- The groups of some fields, in the order in which the search completes them. -/
def tarjan (next : String → List String) (fields : List String) : List (List String) :=
  (sweep next 0 ⟨fields, 0, [], []⟩ fields).1.2.found.reverse


/-! ## Groups -/

/-- What is known of the groups of some fields: the members of a group lead to each other, and
they are listed by name. -/
structure Groups (next : String → List String) (fields : List String)
    (group : String → List String) : Prop where
  inside : ∀ u, ∀ v ∈ next u, v ∈ fields
  mem_iff : ∀ x ∈ fields, ∀ y,
    y ∈ group x ↔ ReflTransGen (Leads next) x y ∧ ReflTransGen (Leads next) y x
  sorted : ∀ x, (group x).Pairwise (· < ·)

/-- Some names in order. -/
def byName (names : List String) : List String := names.mergeSort (· ≤ ·)

variable {next : String → List String} {group : String → List String}
  {nodes finished fields : List String} {s : Sweep} {low : Nat}

theorem Groups.byName_eq (h : Groups next nodes group) {names : List String} {x : String}
    (hnodup : names.Nodup) (hmem : ∀ y, y ∈ names ↔ y ∈ group x) : byName names = group x := by
  have hperm : (byName names).Perm (group x) :=
    (List.mergeSort_perm names _).trans
      ((List.perm_ext_iff_of_nodup hnodup ((h.sorted x).imp fun hlt => ne_of_lt hlt)).2 hmem)
  have hsorted : (byName names).Pairwise (· ≤ ·) :=
    List.pairwise_mergeSort' (· ≤ ·) names
  exact hperm.eq_of_pairwise' hsorted ((h.sorted x).imp fun hlt => le_of_lt hlt)

/-- Which groups come depends on which of the fields were taken before. -/
theorem grouped_congr {taken taken' : List String}
    (h : ∀ x ∈ fields, x ∈ taken ↔ x ∈ taken') :
    grouped group taken fields = grouped group taken' fields := by
  induction fields generalizing taken taken' with
  | nil => rfl
  | cons field rest ih =>
    obtain ⟨hfield, hrest⟩ := List.forall_mem_cons.1 h
    rw [grouped, grouped, ih hrest]
    simp only [hfield]
    split
    · rfl
    · rw [ih fun x hx => ?_]
      rw [List.mem_append, List.mem_append, hrest x hx]

/-! ## What the search keeps -/

/-- A state of the search in which some fields are finished. -/
structure Swept (next : String → List String) (group : String → List String)
    (nodes finished : List String) (s : Sweep) : Prop where
  nodup : s.free.Nodup
  distinct : s.stacked.Nodup
  numbered : ∀ e ∈ s.stack, e.2 < s.count
  free : ∀ x ∈ s.free, x ∈ nodes ∧ x ∉ finished ∧ x ∉ s.stacked
  covered : ∀ x ∈ nodes, x ∈ s.free ∨ x ∈ finished ∨ x ∈ s.stacked
  /-- What is finished and not stacked leads only to such fields. -/
  closed : ∀ x ∈ finished, x ∉ s.stacked → ∀ y ∈ next x, y ∈ finished ∧ y ∉ s.stacked
  /-- The groups found are those of such fields. -/
  found : s.found.map byName = grouped group s.stacked finished.reverse

/-- What a search from some fields comes to.  The fields it leaves on the stack lead to those
that were there before, and it has met the numbers of those to which one step led. -/
structure Outcome (next : String → List String) (group : String → List String)
    (nodes finished : List String) (s : Sweep) (low : Nat) (fields : List String)
    (r : Nat × Sweep) : Prop where
  swept : Swept next group nodes (finished ++ forest next s.free fields) r.2
  free : r.2.free = s.free.filter (· ∉ forest next s.free fields)
  count : s.count ≤ r.2.count
  low_le : r.1 ≤ low
  stack : ∃ top, r.2.stack = top ++ s.stack ∧ ∀ e ∈ top, e.1 ∈ forest next s.free fields ∧
    s.count ≤ e.2 ∧ ∃ u ∈ s.stacked, ReflTransGen (Leads next) e.1 u
  low_lt_iff : ∀ k ≤ s.count, r.1 < k ↔ low < k ∨ ∃ e ∈ s.stack, e.2 < k ∧
    (e.1 ∈ fields ∨ ∃ v ∈ forest next s.free fields, e.1 ∈ next v)

theorem outcome_nil (h : Swept next group nodes finished s) (low : Nat) :
    Outcome next group nodes finished s low [] (low, s) := by
  have hforest : forest next s.free [] = [] := by rw [forest]
  refine ⟨?_, ?_, Nat.le_refl _, Nat.le_refl _,
    ⟨[], rfl, fun _ he => absurd he List.not_mem_nil⟩, fun k _ => ?_⟩
  · rwa [hforest, List.append_nil]
  · simp [hforest]
  · simp [hforest]

/-! ## A field that was entered before -/

theorem Sweep.meet_le (s : Sweep) (low : Nat) (field : String) : s.meet low field ≤ low := by
  unfold meet
  cases s.stack.lookup field with
  | none => exact Nat.le_refl _
  | some number => exact Nat.min_le_left _ _

theorem Sweep.meet_lt_iff (hdistinct : s.stacked.Nodup) {field : String} {k : Nat} :
    s.meet low field < k ↔ low < k ∨ ∃ e ∈ s.stack, e.2 < k ∧ e.1 = field := by
  unfold meet
  cases hfind : s.stack.lookup field with
  | none =>
    have hnone := List.lookup_eq_none_iff.1 hfind
    refine ⟨.inl, fun h => h.resolve_right ?_⟩
    rintro ⟨e, he, -, rfl⟩
    simpa using hnone e he
  | some number =>
    have hmem : (field, number) ∈ s.stack := by
      obtain ⟨before, after, heq, -⟩ := List.lookup_eq_some_iff.1 hfind
      rw [heq]
      exact List.mem_append_right _ List.mem_cons_self
    have hmin : min low number < k ↔ low < k ∨ number < k := by omega
    rw [Option.elim_some, hmin]
    refine or_congr_right ⟨fun h => ⟨_, hmem, h, rfl⟩, ?_⟩
    rintro ⟨e, he, hlt, hfield⟩
    obtain rfl := List.inj_on_of_nodup_map hdistinct he hmem hfield
    exact hlt

theorem Outcome.old {field : String} {rest : List String} {r : Nat × Sweep}
    (hs : Swept next group nodes finished s) (hfield : field ∉ s.free)
    (h : Outcome next group nodes finished s (s.meet low field) rest r) :
    Outcome next group nodes finished s low (field :: rest) r := by
  have hforest : forest next s.free (field :: rest) = forest next s.free rest := by
    rw [forest, if_neg hfield]
  refine ⟨hforest ▸ h.swept, hforest ▸ h.free, h.count, Nat.le_trans h.low_le (s.meet_le low field),
    hforest ▸ h.stack, fun k hk => ?_⟩
  rw [h.low_lt_iff k hk, Sweep.meet_lt_iff hs.distinct, hforest]
  simp only [List.mem_cons]
  grind

/-! ## A field that is entered -/

theorem Swept.enter {field : String} (hs : Swept next group nodes finished s)
    (hfield : field ∈ s.free) : Swept next group nodes finished (s.enter field) := by
  obtain ⟨-, hnew, hunstacked⟩ := hs.free field hfield
  refine ⟨hs.nodup.erase field, List.nodup_cons.2 ⟨hunstacked, hs.distinct⟩, ?_, fun x hx => ?_,
    fun x hx => ?_, fun x hx hstacked y hy => ?_, ?_⟩
  · show ∀ e ∈ (field, s.count) :: s.stack, e.2 < s.count + 1
    refine List.forall_mem_cons.2 ⟨Nat.lt_succ_self _, fun e he => ?_⟩
    exact Nat.lt_succ_of_lt (hs.numbered e he)
  · obtain ⟨hne, hx⟩ := hs.nodup.mem_erase_iff.1 hx
    obtain ⟨hin, hfinished, hstacked⟩ := hs.free x hx
    exact ⟨hin, hfinished, List.not_mem_cons_of_ne_of_not_mem hne hstacked⟩
  · by_cases he : x = field
    · exact .inr (.inr (he ▸ List.mem_cons_self))
    · rcases hs.covered x hx with h | h | h
      · exact .inl ((List.mem_erase_of_ne he).2 h)
      · exact .inr (.inl h)
      · exact .inr (.inr (List.mem_cons_of_mem _ h))
  · obtain ⟨hy, hyn⟩ := hs.closed x hx (fun h => hstacked (List.mem_cons_of_mem _ h)) y hy
    exact ⟨hy, List.not_mem_cons_of_ne_of_not_mem (fun he : y = field => hnew (he ▸ hy)) hyn⟩
  · refine hs.found.trans (grouped_congr fun x hx => ?_)
    show x ∈ s.stacked ↔ x ∈ field :: s.stacked
    rw [List.mem_cons, or_iff_right]
    rintro rfl
    exact hnew (List.mem_reverse.1 hx)

/-- The forest of a field that is entered: what is below it, and the field. -/
theorem forest_singleton {free : List String} {field : String} (hfield : field ∈ free) :
    forest next free [field] = forest next (free.erase field) (next field) ++ [field] := by
  rw [forest, if_pos hfield]
  dsimp only
  congr 2
  rw [forest]

/-- What is left free by what is below a field that is entered. -/
theorem filter_forest_singleton {free : List String} {field : String} (hfree : free.Nodup)
    (hfield : field ∈ free) :
    (free.erase field).filter (· ∉ forest next (free.erase field) (next field)) =
      free.filter (· ∉ forest next free [field]) := by
  have hdrop : decide (field ∉ forest next free [field]) = false := by
    rw [forest_singleton hfield]
    simp
  refine Eq.trans (List.filter_congr fun x hx => ?_) (filter_erase hdrop free)
  have hne : x ≠ field := fun he => hfree.not_mem_erase (he ▸ hx)
  simp [forest_singleton hfield, hne]

theorem forest_cons {free rest : List String} {field : String} (hfree : free.Nodup)
    (hfield : field ∈ free) : forest next free (field :: rest) =
      forest next free [field] ++
        forest next (free.filter (· ∉ forest next free [field])) rest := by
  rw [forest, if_pos hfield]
  dsimp only
  rw [filter_forest_singleton hfree hfield, forest_singleton hfield, List.append_assoc,
    List.singleton_append]

/-- A field that stays on the stack is finished. -/
theorem Swept.finish {field : String} (hs : Swept next group nodes finished s)
    (hfield : field ∈ s.stacked) : Swept next group nodes (finished ++ [field]) s := by
  refine ⟨hs.nodup, hs.distinct, hs.numbered, fun x hx => ?_, fun x hx => ?_,
    fun x hx hstacked y hy => ?_, ?_⟩
  · obtain ⟨hin, hnew, hunstacked⟩ := hs.free x hx
    refine ⟨hin, fun hmem => ?_, hunstacked⟩
    rcases List.mem_append.1 hmem with hmem | hmem
    · exact hnew hmem
    · exact hunstacked (List.mem_singleton.1 hmem ▸ hfield)
  · exact (hs.covered x hx).imp_right (Or.imp_left (List.mem_append_left _))
  · have hx : x ∈ finished := by
      refine (List.mem_append.1 hx).resolve_right fun he => hstacked ?_
      exact List.mem_singleton.1 he ▸ hfield
    exact (hs.closed x hx hstacked y hy).imp_left (List.mem_append_left _)
  · rw [hs.found, List.reverse_append, List.reverse_singleton, List.singleton_append, grouped,
      if_pos hfield]

section

variable {field : String} {r : Nat × Sweep} (hs : Swept next group nodes finished s)
  (hfield : field ∈ s.free)
  (h : Outcome next group nodes finished (s.enter field) s.count (next field) r)

include hfield

theorem mem_forest_singleton {v : String} : v ∈ forest next s.free [field] ↔
    v ∈ forest next (s.enter field).free (next field) ∨ v = field := by
  rw [forest_singleton hfield, List.mem_append, List.mem_singleton]
  rfl

include h

/-- The lowest number met below a field is that of a field of the stack to which a step
leads. -/
theorem Outcome.low_lt {k : Nat} (hk : k ≤ s.count) : r.1 < k ↔
    ∃ e ∈ s.stack, e.2 < k ∧ ∃ v ∈ forest next s.free [field], e.1 ∈ next v := by
  rw [h.low_lt_iff k (Nat.le_succ_of_le hk), or_iff_right (Nat.not_lt.2 hk)]
  constructor
  · rintro ⟨e, he, hlt, hmet⟩
    have he : e ∈ s.stack := by
      refine (List.mem_cons.1 he).resolve_left ?_
      rintro rfl
      exact Nat.not_lt.2 hk hlt
    refine ⟨e, he, hlt, ?_⟩
    rcases hmet with hmet | ⟨v, hv, hmet⟩
    · exact ⟨field, (mem_forest_singleton hfield).2 (.inr rfl), hmet⟩
    · exact ⟨v, (mem_forest_singleton hfield).2 (.inl hv), hmet⟩
  · rintro ⟨e, he, hlt, v, hv, hmet⟩
    refine ⟨e, List.mem_cons_of_mem _ he, hlt, ?_⟩
    rcases (mem_forest_singleton hfield).1 hv with hv | rfl
    · exact .inr ⟨v, hv, hmet⟩
    · exact .inl hmet

include hs

theorem Outcome.low_lt_iff_singleton : ∀ k ≤ s.count, r.1 < k ↔ s.count < k ∨
    ∃ e ∈ s.stack, e.2 < k ∧ (e.1 ∈ [field] ∨ ∃ v ∈ forest next s.free [field], e.1 ∈ next v) := by
  intro k hk
  rw [h.low_lt hfield hk, or_iff_right (Nat.not_lt.2 hk)]
  refine exists_congr fun e => and_congr_right fun he => and_congr_right fun _ => ?_
  have hne : e.1 ∉ [field] := by
    rw [List.mem_singleton]
    rintro rfl
    exact (hs.free e.1 hfield).2.2 (List.mem_map_of_mem he)
  rw [or_iff_right hne]

/-- A field below which a lower number was met stays on the stack with what is above it: it
leads back to the stack. -/
theorem Outcome.keep (hlow : r.1 < s.count) :
    Outcome next group nodes finished s s.count [field] r := by
  obtain ⟨top, hstack, htop⟩ := h.stack
  obtain ⟨e, he, -, v, hv, hmet⟩ := (h.low_lt hfield (Nat.le_refl _)).1 hlow
  have hback : ReflTransGen (Leads next) field e.1 := by
    obtain ⟨f, hf, hway⟩ := forest_sound hv
    obtain rfl := List.mem_singleton.1 hf
    exact hway.tail hmet
  refine ⟨?_, h.free.trans (filter_forest_singleton hs.nodup hfield), Nat.le_of_succ_le h.count,
    h.low_le, ⟨top ++ [(field, s.count)], by rw [hstack, List.append_assoc]; rfl, fun e' he' => ?_⟩,
    h.low_lt_iff_singleton hs hfield⟩
  · rw [forest_singleton hfield, ← List.append_assoc]
    refine h.swept.finish ?_
    simp [Sweep.stacked, hstack, Sweep.enter]
  · rcases List.mem_append.1 he' with he' | he'
    · obtain ⟨hmem, hcount, u, hu, hway⟩ := htop e' he'
      refine ⟨(mem_forest_singleton hfield).2 (.inl hmem), Nat.le_of_succ_le hcount, ?_⟩
      rcases List.mem_cons.1 hu with rfl | hu
      · exact ⟨e.1, List.mem_map_of_mem he, hway.trans hback⟩
      · exact ⟨u, hu, hway⟩
    · obtain rfl := List.mem_singleton.1 he'
      exact ⟨(mem_forest_singleton hfield).2 (.inr rfl), Nat.le_refl _, e.1,
        List.mem_map_of_mem he, hback⟩

end

/-! ## A group that is complete -/

theorem Sweep.leave_complete {field : String} {number : Nat} {top below : List (String × Nat)}
    (hstack : s.stack = top ++ (field, number) :: below) (hdistinct : s.stacked.Nodup)
    (low : Nat) : s.leave field low low =
      { s with stack := below, found := (top.map Prod.fst ++ [field]) :: s.found } := by
  have htop : ∀ e ∈ top, (e.1 != field) = true := by
    intro e he
    rw [stacked, hstack, List.map_append, List.nodup_append] at hdistinct
    simpa using hdistinct.2.2 e.1 (List.mem_map_of_mem he) field (by simp)
  unfold leave
  rw [if_pos rfl, hstack, List.dropWhile_append_of_pos htop, List.takeWhile_append_of_pos htop]
  simp

/-- If no step leads from the forest of a field back to the stack, then neither does any way. -/
theorem Swept.leads_inside {field : String} (hs : Swept next group nodes finished s)
    (hg : Groups next nodes group)
    (hno : ∀ e ∈ s.stack, ∀ v ∈ forest next s.free [field], e.1 ∉ next v) {v z : String}
    (hv : v ∈ forest next s.free [field] ∨ v ∈ finished ∧ v ∉ s.stacked)
    (h : ReflTransGen (Leads next) v z) :
    z ∈ forest next s.free [field] ∨ z ∈ finished ∧ z ∉ s.stacked := by
  refine mem_of_leads
    (fun z => z ∈ forest next s.free [field] ∨ z ∈ finished ∧ z ∉ s.stacked)
    (fun u w hu huw => ?_) hv h
  rcases hu with hu | ⟨hu, hunstacked⟩
  · have hw : w ∉ s.stacked := by
      intro hw
      obtain ⟨e, he, rfl⟩ := List.mem_map.1 hw
      exact hno e he u hu huw
    rcases hs.covered w (hg.inside u w huw) with hfree | hfinished | hstacked
    · exact .inl (forest_closed hu huw hfree)
    · exact .inr ⟨hfinished, hw⟩
    · exact absurd hstacked hw
  · exact .inr (hs.closed u hu hunstacked w huw)

section

variable {field : String} {r : Nat × Sweep} {top : List (String × Nat)}
  (hg : Groups next nodes group) (hs : Swept next group nodes finished s)
  (hfield : field ∈ s.free)
  (h : Outcome next group nodes finished (s.enter field) s.count (next field) r)
  (hno : ∀ e ∈ s.stack, ∀ v ∈ forest next s.free [field], e.1 ∉ next v)
  (hstack : r.2.stack = top ++ (field, s.count) :: s.stack)
  (htop : ∀ e ∈ top, e.1 ∈ forest next (s.enter field).free (next field) ∧
    s.count + 1 ≤ e.2 ∧ ∃ u ∈ (s.enter field).stacked, ReflTransGen (Leads next) e.1 u)

include hg hs hfield h hno hstack htop

/-- Then the group of the field is what lies above it on the stack. -/
theorem Outcome.mem_top_iff {y : String} :
    y ∈ top.map Prod.fst ++ [field] ↔ y ∈ group field := by
  have hforest (x : String) (hx : x ∈ forest next s.free [field]) :
      x ∉ finished ∧ x ∉ s.stacked := (hs.free x (forest_subset hx)).2
  have hself : field ∈ forest next s.free [field] := (mem_forest_singleton hfield).2 (.inr rfl)
  rw [hg.mem_iff field (hs.free field hfield).1, List.mem_append, List.mem_singleton]
  constructor
  · rintro (hy | rfl)
    · obtain ⟨e, he, rfl⟩ := List.mem_map.1 hy
      obtain ⟨hmem, -, u, hu, hway⟩ := htop e he
      have hmem := (mem_forest_singleton hfield).2 (.inl hmem)
      obtain ⟨f, hf, hdown⟩ := forest_sound hmem
      obtain rfl := List.mem_singleton.1 hf
      refine ⟨hdown, ?_⟩
      rcases List.mem_cons.1 hu with rfl | hu
      · exact hway
      · rcases hs.leads_inside hg hno (.inl hmem) hway with hin | hout
        · exact absurd hu (hforest u hin).2
        · exact absurd hu hout.2
    · exact ⟨.refl, .refl⟩
  · rintro ⟨hdown, hback⟩
    rcases hs.leads_inside hg hno (.inl hself) hdown with hy | ⟨hy, hunstacked⟩
    · rcases (mem_forest_singleton hfield).1 hy with hbelow | rfl
      · refine .inl ?_
        by_contra hnot
        -- a field that is finished and not stacked does not lead back
        have hout : y ∉ r.2.stacked := by
          rw [Sweep.stacked, hstack, List.map_append, List.map_cons, List.mem_append, List.mem_cons]
          rintro (hmem | rfl | hmem)
          · exact hnot hmem
          · exact (hs.nodup.not_mem_erase) (forest_subset hbelow)
          · exact (hforest y hy).2 hmem
        have hclosed : field ∈ finished ++ forest next (s.enter field).free (next field) ∧
            field ∉ r.2.stacked :=
          mem_of_leads (fun z => z ∈ finished ++ forest next (s.enter field).free (next field) ∧
            z ∉ r.2.stacked) (fun u w hu huw => h.swept.closed u hu.1 hu.2 w huw)
            ⟨List.mem_append_right _ hbelow, hout⟩ hback
        refine hclosed.2 ?_
        simp [Sweep.stacked, hstack]
      · exact .inr rfl
    · have hclosed := mem_of_leads (fun z => z ∈ finished ∧ z ∉ s.stacked)
        (fun u w hu huw => hs.closed u hu.1 hu.2 w huw) ⟨hy, hunstacked⟩ hback
      exact absurd hclosed.1 (hforest field hself).1

theorem Outcome.mem_stacked_iff {y : String} :
    y ∈ r.2.stacked ↔ y ∈ group field ∨ y ∈ s.stacked := by
  rw [← h.mem_top_iff hg hs hfield hno hstack htop]
  simp [Sweep.stacked, hstack, or_assoc]

/-- The members of the group were entered below the field. -/
theorem Outcome.mem_forest_of_group {y : String} (hy : y ∈ group field) :
    y ∈ forest next s.free [field] := by
  rw [mem_forest_singleton hfield]
  refine (List.mem_append.1 ((h.mem_top_iff hg hs hfield hno hstack htop).2 hy)).imp
    (fun hy => ?_) List.mem_singleton.1
  obtain ⟨e, he, rfl⟩ := List.mem_map.1 hy
  exact (htop e he).1

/-- What was found with the group is that of the fields that are finished now. -/
theorem Outcome.found_complete :
    ((top.map Prod.fst ++ [field]) :: r.2.found).map byName =
      grouped group s.stacked (finished ++ forest next s.free [field]).reverse := by
  have hfree : field ∉ s.stacked := (hs.free field hfield).2.2
  have hlast : (finished ++ forest next s.free [field]).reverse =
      field :: (finished ++ forest next (s.enter field).free (next field)).reverse := by
    rw [forest_singleton hfield, ← List.append_assoc, List.reverse_append]
    rfl
  have hnodup : (top.map Prod.fst ++ [field]).Nodup := by
    have hdistinct := h.swept.distinct
    rw [Sweep.stacked, hstack, List.map_append, List.map_cons, List.append_cons] at hdistinct
    exact (List.nodup_append.1 hdistinct).1
  have hgroup := hg.byName_eq hnodup fun y => h.mem_top_iff hg hs hfield hno hstack htop
  rw [hlast, grouped, if_neg hfree, List.map_cons, hgroup, h.swept.found]
  refine congrArg (group field :: ·) (grouped_congr fun x _ => ?_)
  rw [h.mem_stacked_iff hg hs hfield hno hstack htop, List.mem_append]

/-- When the group is taken off the stack, its members are finished and not stacked. -/
theorem Outcome.swept_complete :
    Swept next group nodes (finished ++ forest next s.free [field])
      { r.2 with
        stack := s.stack
        found := (top.map Prod.fst ++ [field]) :: r.2.found } := by
  have hstacked (y : String) := h.mem_stacked_iff hg hs hfield hno hstack htop (y := y)
  have hforest (y : String) := h.mem_forest_of_group hg hs hfield hno hstack htop (y := y)
  have hself : field ∈ group field :=
    (h.mem_top_iff hg hs hfield hno hstack htop).1 (List.mem_append_right _ (by simp))
  have hbelow : ∀ x ∈ finished ++ forest next (s.enter field).free (next field),
      x ∈ finished ++ forest next s.free [field] := fun x hx => by
    rw [List.mem_append, mem_forest_singleton hfield]
    exact (List.mem_append.1 hx).imp_right .inl
  refine ⟨h.swept.nodup, hs.distinct, fun e he => ?_, fun x hx => ?_, fun x hx => ?_,
    fun x hx hunstacked y hy => ?_, h.found_complete hg hs hfield hno hstack htop⟩
  · exact Nat.lt_of_lt_of_le (hs.numbered e he) (Nat.le_of_succ_le h.count)
  · obtain ⟨hin, hnew, hunstacked⟩ := h.swept.free x hx
    rw [hstacked, not_or] at hunstacked
    refine ⟨hin, fun hmem => ?_, hunstacked.2⟩
    rw [List.mem_append, mem_forest_singleton hfield] at hmem
    rcases hmem with hmem | hmem | rfl
    · exact hnew (List.mem_append_left _ hmem)
    · exact hnew (List.mem_append_right _ hmem)
    · exact hunstacked.1 hself
  · rcases h.swept.covered x hx with hfree | hfinished | hx
    · exact .inl hfree
    · exact .inr (.inl (hbelow x hfinished))
    · rcases (hstacked x).1 hx with hx | hx
      · exact .inr (.inl (List.mem_append_right _ (hforest x hx)))
      · exact .inr (.inr hx)
  · -- a member of the group leads into the forest or to what was finished before
    by_cases hx' : x ∈ forest next s.free [field]
    · rcases hs.leads_inside hg hno (.inl hx') (.single hy) with hy | ⟨hy, hunstacked⟩
      · exact ⟨List.mem_append_right _ hy, (hs.free y (forest_subset hy)).2.2⟩
      · exact ⟨List.mem_append_left _ hy, hunstacked⟩
    · have hx : x ∈ finished := (List.mem_append.1 hx).resolve_right hx'
      exact (hs.closed x hx hunstacked y hy).imp_left (List.mem_append_left _)

/-- A field below which nothing lower was met: its group is complete. -/
theorem Outcome.complete :
    Outcome next group nodes finished s s.count [field] (r.1,
      { r.2 with
        stack := s.stack
        found := (top.map Prod.fst ++ [field]) :: r.2.found }) := by
  have hlowest := h.low_lt_iff_singleton hs hfield
  exact ⟨h.swept_complete hg hs hfield hno hstack htop,
    h.free.trans (filter_forest_singleton hs.nodup hfield), Nat.le_of_succ_le h.count, h.low_le,
    ⟨[], rfl, fun _ he => absurd he List.not_mem_nil⟩, hlowest⟩

end

/-- When the search leaves a field, its group is complete or it stays on the stack. -/
theorem Outcome.leave {field : String} {r : Nat × Sweep} (hg : Groups next nodes group)
    (hs : Swept next group nodes finished s) (hfield : field ∈ s.free)
    (h : Outcome next group nodes finished (s.enter field) s.count (next field) r) :
    Outcome next group nodes finished s s.count [field]
      (r.1, r.2.leave field s.count r.1) := by
  rcases Nat.lt_or_eq_of_le h.low_le with hlow | hlow
  · have hkeep : r.2.leave field s.count r.1 = r.2 := by
      unfold Sweep.leave
      rw [if_neg (Nat.ne_of_lt hlow)]
    rw [hkeep]
    exact h.keep hs hfield hlow
  · obtain ⟨top, hstack, htop⟩ := h.stack
    have hno : ∀ e ∈ s.stack, ∀ v ∈ forest next s.free [field], e.1 ∉ next v := by
      intro e he v hv hmet
      have hlt := (h.low_lt hfield (Nat.le_refl _)).2 ⟨e, he, hs.numbered e he, v, hv, hmet⟩
      exact Nat.lt_irrefl _ (hlow ▸ hlt)
    have hcomplete := h.complete hg hs hfield hno hstack htop
    rw [hlow] at hcomplete ⊢
    rwa [Sweep.leave_complete hstack h.swept.distinct]

/-- A field that is entered, and then the fields after it. -/
theorem Outcome.later {field : String} {rest : List String} {first r : Nat × Sweep}
    (hs : Swept next group nodes finished s) (hfield : field ∈ s.free)
    (h : Outcome next group nodes finished s s.count [field] first)
    (h' : Outcome next group nodes (finished ++ forest next s.free [field]) first.2
      (min low first.1) rest r) :
    Outcome next group nodes finished s low (field :: rest) r := by
  have hforest : forest next s.free (field :: rest) =
      forest next s.free [field] ++ forest next first.2.free rest := by
    rw [forest_cons hs.nodup hfield, ← h.free]
  obtain ⟨top, hstack, htop⟩ := h.stack
  obtain ⟨top', hstack', htop'⟩ := h'.stack
  refine ⟨?_, ?_, Nat.le_trans h.count h'.count, Nat.le_trans h'.low_le (Nat.min_le_left _ _),
    ⟨top' ++ top, by rw [hstack', hstack, List.append_assoc], fun e he => ?_⟩, fun k hk => ?_⟩
  · rw [hforest, ← List.append_assoc]
    exact h'.swept
  · rw [h'.free, h.free, List.filter_filter, hforest, ← h.free]
    refine List.filter_congr fun x _ => ?_
    simp [Bool.and_comm]
  · rw [hforest, List.mem_append]
    rcases List.mem_append.1 he with he | he
    · obtain ⟨hmem, hcount, u, hu, hway⟩ := htop' e he
      refine ⟨.inr hmem, Nat.le_trans h.count hcount, ?_⟩
      rw [Sweep.stacked, hstack, List.map_append, List.mem_append] at hu
      rcases hu with hu | hu
      · obtain ⟨e', he', rfl⟩ := List.mem_map.1 hu
        obtain ⟨-, -, u, hu, hway'⟩ := htop e' he'
        exact ⟨u, hu, hway.trans hway'⟩
      · exact ⟨u, hu, hway⟩
    · obtain ⟨hmem, hcount, hback⟩ := htop e he
      exact ⟨.inl hmem, hcount, hback⟩
  · -- the numbers below `k` on the stack are those that were there before the field
    have hfirst := h.low_lt_iff k hk
    rw [or_iff_right (Nat.not_lt.2 hk)] at hfirst
    have hmin : min low first.1 < k ↔ low < k ∨ first.1 < k := by omega
    have hbefore (e : String × Nat) (hlt : e.2 < k) : e ∈ first.2.stack ↔ e ∈ s.stack := by
      rw [hstack, List.mem_append, or_iff_right fun he => ?_]
      exact Nat.not_le.2 hlt (Nat.le_trans hk (htop e he).2.1)
    rw [h'.low_lt_iff k (Nat.le_trans hk h.count), hmin, hfirst, hforest]
    simp only [List.mem_cons, List.mem_append]
    grind

theorem outcome_sweep (hg : Groups next nodes group) (low : Nat) (s : Sweep) (fields : List String)
    (hs : Swept next group nodes finished s) :
    Outcome next group nodes finished s low fields (sweep next low s fields).1 := by
  fun_induction sweep next low s fields generalizing finished with
  | case1 low s => exact outcome_nil hs low
  | case2 low s field rest hfield inner later ih ih' =>
    have hleft := (ih (hs.enter hfield)).leave hg hs hfield
    exact hleft.later hs hfield (ih' hleft.swept)
  | case3 low s field rest hfield ih => exact (ih hs).old hs hfield

/-! ## The groups of a set -/

variable {g : Graph} {within : NameSet}

/-- The groups of a set are those of its fields along their users. -/
theorem groups_component (g : Graph) (within : NameSet) :
    Groups (g.usersWithin within) within.names (g.component within) where
  inside _ _ hv := (mem_usersWithin.1 hv).1
  mem_iff x hx y := by
    have hx : x ∈ within := hx
    rw [mem_component hx]
    constructor
    · intro h
      exact ⟨(reaches_users_iff hx).2 h.2, (reaches_users_iff (mem_within_of_reads hx h.1)).2 h.1⟩
    · rintro ⟨hdown, hback⟩
      have hyx := (reaches_users_iff hx).1 hdown
      have hy : y ∈ within := by
        cases hyx.cases_head with
        | inl heq => exact heq ▸ hx
        | inr hstep => exact hstep.choose_spec.1.1
      exact ⟨(reaches_users_iff hy).1 hback, hyx⟩
  sorted _ := (NameSet.sorted _).filter _

/-- The groups of a set are those that the search along users finds, by name, and the last one
first. -/
theorem components_eq_tarjan (g : Graph) (within : NameSet) :
    g.components within =
      ((tarjan (g.usersWithin within) within.names).map byName).reverse := by
  have hstart : Swept (g.usersWithin within) (g.component within) within.names []
      ⟨within.names, 0, [], []⟩ :=
    ⟨NameSet.nodup within, List.nodup_nil, fun _ he => absurd he List.not_mem_nil,
      fun x hx => ⟨hx, by simp, List.not_mem_nil⟩, fun x hx => .inl hx,
      fun _ hx => absurd hx List.not_mem_nil, rfl⟩
  have h := outcome_sweep (groups_component g within) 0 _ within.names hstart
  -- nothing was stacked before, so nothing is left on the stack
  have hstack : (sweep (g.usersWithin within) 0 ⟨within.names, 0, [], []⟩
      within.names).1.2.stacked = [] := by
    obtain ⟨top, hstack, htop⟩ := h.stack
    cases top with
    | nil => rw [Sweep.stacked, hstack]; rfl
    | cons e rest =>
      obtain ⟨-, -, u, hu, -⟩ := htop e List.mem_cons_self
      exact absurd hu List.not_mem_nil
  have hfound := h.swept.found
  rw [hstack, List.nil_append] at hfound
  rw [tarjan, List.map_reverse, List.reverse_reverse, hfound, components,
    finishOrder_enter (NameSet.nodup within)]

/-- **Main result.** The groups of a set of fields share no field and leave none out, and none
is empty.  Two fields are in one group exactly if each leads to the other by references inside
the set.  The fields of a group are in the order of their names, and no group refers to a
later one.  They are the groups that Tarjan's search along the users of fields completes, each
in the order of names, in the reverse of the order in which it does. -/
theorem components_ordered_knots (g : Graph) (within : NameSet) :
    let groups := g.components within
    let refers := fun x y => x ∈ within ∧ y ∈ within ∧ y ∈ g.precedentsOf x
    groups.flatten.Perm within.names ∧ [] ∉ groups ∧
      (∀ x ∈ within, ∀ y ∈ within, (∃ group ∈ groups, x ∈ group ∧ y ∈ group) ↔
        ReflTransGen refers x y ∧ ReflTransGen refers y x) ∧
      (∀ group ∈ groups, group.Pairwise (· < ·)) ∧
      (groups.Pairwise fun earlier later => ∀ x ∈ earlier, ∀ y ∈ later, y ∉ g.precedentsOf x) ∧
      groups = ((tarjan (g.usersWithin within) within.names).map byName).reverse := by
  intro groups refers
  have hordered : g.Ordered within [] groups := ordered_components g within
  refine ⟨?_, fun hnil => ?_, fun x hx y hy => ⟨?_, fun hknot => ?_⟩,
    fun _ hgroup => sorted_of_mem_components hgroup,
    hordered.pairwise.imp fun h x hx y hy => (h x hx y hy).2, components_eq_tarjan g within⟩
  · refine (List.perm_ext_iff_of_nodup (nodup_flatten_components g within)
      (NameSet.nodup within)).2 fun x => ?_
    rw [List.mem_flatten, NameSet.mem_names]
    constructor
    · rintro ⟨group, hgroup, hx⟩
      exact (hordered.fresh group hgroup x hx).1
    · exact exists_component
  · obtain ⟨_, hnext⟩ := nextGroup_of_mem hnil
    exact hnext.nonempty rfl
  · rintro ⟨group, hgroup, hx, hy⟩
    obtain ⟨_, hnext⟩ := nextGroup_of_mem hgroup
    exact (hnext.knot x hx y).1 hy
  · obtain ⟨group, hgroup, hx⟩ := exists_component hx
    obtain ⟨_, hnext⟩ := nextGroup_of_mem hgroup
    exact ⟨group, hgroup, hx, (hnext.knot x hx y).2 hknot⟩

end Formulary.Graph
