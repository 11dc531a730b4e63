/-
  The order in which a depth-first search leaves fields.

  The search keeps marks of what is left to do.  Its order is that of the forest
  of the fields it enters: what is below a field comes before it.

  * `Graph.forest`: the order, by recursion on the forest;
  * `Graph.finishOrder_enter`: the search is this recursion;
  * `Graph.mem_finishOrder`, `Graph.nodup_finishOrder`: every field comes once;
  * `Graph.finished_before`: the last field of a knot comes after all that the
    knot leads to.
-/
import Formulary.Graph.Components
import Formulary.Proofs.Mirror

namespace Formulary.Graph

open Relation

variable {next : String → List String}

/-- The free fields below some fields, each after the fields below it. -/
def forest (next : String → List String) (free fields : List String) : List String :=
  match fields with
  | [] => []
  | field :: rest =>
    if field ∈ free then
      let below := forest next (free.erase field) (next field)
      below ++ field :: forest next ((free.erase field).filter (· ∉ below)) rest
    else forest next free rest
termination_by (free.length, fields.length)
decreasing_by
  · rename_i h
    have := List.length_erase_of_mem h
    have := List.length_pos_of_mem h
    exact Prod.Lex.left _ _ (by omega)
  · rename_i h
    have := List.length_erase_of_mem h
    have := List.length_pos_of_mem h
    exact Prod.Lex.left _ _ (Nat.lt_of_le_of_lt (List.length_filter_le _ _) (by omega))
  · exact Prod.Lex.right _ (by simp)

/-! ## The search and the forest -/

/-- A name that a filter drops anyway may be taken out before. -/
theorem filter_erase {p : String → Bool} {field : String} (h : p field = false)
    (names : List String) : (names.erase field).filter p = names.filter p := by
  induction names with
  | nil => rfl
  | cons head rest ih =>
    rw [List.erase_cons]
    split
    next he => rw [List.filter_cons_of_neg (by simp_all)]
    next => rw [List.filter_cons, List.filter_cons, ih]

theorem leave_mem_finishOrder {free : List String} {marks : List Mark} {field : String}
    (h : .leave field ∈ marks) : field ∈ finishOrder next free marks := by
  fun_induction finishOrder next free marks with
  | case1 => simp at h
  | case2 free left rest ih =>
    rcases List.mem_cons.1 h with h | h
    · rw [Mark.leave.inj h]
      exact List.mem_cons_self
    · exact List.mem_cons_of_mem _ (ih h)
  | case3 free entered rest hf ih =>
    refine ih (List.mem_append_right _ (List.mem_cons_of_mem _ ?_))
    simpa using h
  | case4 free entered rest hf ih => exact ih (by simpa using h)

/-- The search does the first marks first, and the others with what is left free. -/
theorem finishOrder_append {free : List String} {first : List Mark} (hfree : free.Nodup)
    (hleave : ∀ field, .leave field ∈ first → field ∉ free) (later : List Mark) :
    finishOrder next free (first ++ later) = finishOrder next free first ++
      finishOrder next (free.filter (· ∉ finishOrder next free first)) later := by
  fun_induction finishOrder next free first with
  | case1 free => rw [List.filter_eq_self.2 (by simp), List.nil_append, List.nil_append]
  | case2 free field rest ih =>
    have hf : field ∉ free := hleave field List.mem_cons_self
    rw [List.cons_append, finishOrder, ih hfree fun f h => hleave f (List.mem_cons_of_mem _ h),
      List.cons_append]
    congr 3
    refine List.filter_congr fun x hx => ?_
    simp only [List.mem_cons, not_or, decide_eq_decide]
    exact ⟨fun h => ⟨fun he => hf (he ▸ hx), h⟩, fun h => h.2⟩
  | case3 free field rest hf ih =>
    have hmarks : ∀ f, .leave f ∈ (next field).map Mark.enter ++ Mark.leave field :: rest →
        f ∉ free.erase field := by
      intro f hm
      rcases List.mem_append.1 hm with hm | hm
      · simp at hm
      · rcases List.mem_cons.1 hm with hm | hm
        · rw [Mark.leave.inj hm]
          exact hfree.not_mem_erase
        · exact fun he => hleave f (List.mem_cons_of_mem _ hm) (List.mem_of_mem_erase he)
    have hout : field ∈ finishOrder next (free.erase field)
        ((next field).map .enter ++ .leave field :: rest) :=
      leave_mem_finishOrder (List.mem_append_right _ List.mem_cons_self)
    rw [List.cons_append, finishOrder, if_pos hf, ← List.cons_append, ← List.append_assoc,
      ih (hfree.erase field) hmarks, filter_erase (by simpa using hout)]
  | case4 free field rest hf ih =>
    rw [List.cons_append, finishOrder, if_neg hf]
    exact ih hfree fun f h => hleave f (List.mem_cons_of_mem _ h)

theorem finishOrder_enter {free : List String} (hfree : free.Nodup) (fields : List String) :
    finishOrder next free (fields.map .enter) = forest next free fields := by
  fun_induction forest next free fields with
  | case1 => rw [List.map_nil, finishOrder]
  | case2 free field rest hf below ih ih' =>
    have hno : ∀ f, .leave f ∈ (next field).map Mark.enter → f ∉ free.erase field := by simp
    have hleft : (free.erase field).filter (· ∉ below) |>.Nodup := (hfree.erase field).filter _
    rw [List.map_cons, finishOrder, if_pos hf, finishOrder_append (hfree.erase field) hno,
      ih (hfree.erase field), finishOrder, ih' hleft]
  | case3 free field rest hf ih =>
    rw [List.map_cons, finishOrder, if_neg hf, ih hfree]

/-! ## The forest -/

theorem mem_left {free below : List String} {field x : String} :
    x ∈ (free.erase field).filter (· ∉ below) ↔ x ∈ free.erase field ∧ x ∉ below := by
  simp

theorem forest_subset {free fields : List String} {x : String}
    (h : x ∈ forest next free fields) : x ∈ free := by
  fun_induction forest next free fields with
  | case1 => exact absurd h List.not_mem_nil
  | case2 free field rest hf below ih ih' =>
    rcases List.mem_append.1 h with h | h
    · exact List.mem_of_mem_erase (ih h)
    · rcases List.mem_cons.1 h with rfl | h
      · exact hf
      · exact List.mem_of_mem_erase (mem_left.1 (ih' h)).1
  | case3 free field rest hf ih => exact ih h

theorem nodup_forest {free : List String} (hfree : free.Nodup) (fields : List String) :
    (forest next free fields).Nodup := by
  fun_induction forest next free fields with
  | case1 => exact List.nodup_nil
  | case2 free field rest hf below ih ih' =>
    have hleft := ih' ((hfree.erase field).filter _)
    refine List.nodup_append.2 ⟨ih (hfree.erase field), List.nodup_cons.2 ⟨?_, hleft⟩, ?_⟩
    · exact fun h => hfree.not_mem_erase (mem_left.1 (forest_subset h)).1
    · rintro a ha b hb rfl
      rcases List.mem_cons.1 hb with rfl | hb
      · exact hfree.not_mem_erase (forest_subset ha)
      · exact (mem_left.1 (forest_subset hb)).2 ha
  | case3 free field rest hf ih => exact ih hfree

theorem forest_sound {free fields : List String} {x : String}
    (h : x ∈ forest next free fields) : ∃ f ∈ fields, ReflTransGen (Leads next) f x := by
  fun_induction forest next free fields with
  | case1 => exact absurd h List.not_mem_nil
  | case2 free field rest hf below ih ih' =>
    rcases List.mem_append.1 h with h | h
    · obtain ⟨f, hfn, hfx⟩ := ih h
      exact ⟨field, List.mem_cons_self, .head hfn hfx⟩
    · rcases List.mem_cons.1 h with rfl | h
      · exact ⟨_, List.mem_cons_self, .refl⟩
      · obtain ⟨f, hfr, hfx⟩ := ih' h
        exact ⟨f, List.mem_cons_of_mem _ hfr, hfx⟩
  | case3 free field rest hf ih =>
    obtain ⟨f, hfr, hfx⟩ := ih h
    exact ⟨f, List.mem_cons_of_mem _ hfr, hfx⟩

theorem mem_forest_of_mem {free fields : List String} {x : String} (h : x ∈ fields)
    (hx : x ∈ free) : x ∈ forest next free fields := by
  fun_induction forest next free fields with
  | case1 => exact absurd h List.not_mem_nil
  | case2 free field rest hf below ih ih' =>
    by_cases hb : x ∈ below
    · exact List.mem_append_left _ hb
    · refine List.mem_append_right _ ?_
      by_cases he : x = field
      · exact he ▸ List.mem_cons_self
      · have hrest : x ∈ rest := (List.mem_cons.1 h).resolve_left he
        exact List.mem_cons_of_mem _
          (ih' hrest (mem_left.2 ⟨(List.mem_erase_of_ne he).2 hx, hb⟩))
  | case3 free field rest hf ih =>
    rcases List.mem_cons.1 h with rfl | h
    · exact absurd hx hf
    · exact ih h hx

/-- What a field of the forest leads to is in the forest, as far as it is free. -/
theorem forest_closed {free fields : List String} {u v : String}
    (hu : u ∈ forest next free fields) (huv : v ∈ next u) (hv : v ∈ free) :
    v ∈ forest next free fields := by
  fun_induction forest next free fields with
  | case1 => exact absurd hu List.not_mem_nil
  | case2 free field rest hf below ih ih' =>
    by_cases he : v = field
    · exact List.mem_append_right _ (he ▸ List.mem_cons_self)
    have hv' : v ∈ free.erase field := (List.mem_erase_of_ne he).2 hv
    rcases List.mem_append.1 hu with hu | hu
    · exact List.mem_append_left _ (ih hu hv')
    · rcases List.mem_cons.1 hu with rfl | hu
      · exact List.mem_append_left _ (mem_forest_of_mem huv hv')
      · by_cases hb : v ∈ below
        · exact List.mem_append_left _ hb
        · exact List.mem_append_right _
            (List.mem_cons_of_mem _ (ih' hu (mem_left.2 ⟨hv', hb⟩)))
  | case3 free field rest hf ih => exact ih hu hv

/-! ## Knots -/

/-- One step leads to a free name. -/
def LeadsFree (next : String → List String) (free : List String) (u v : String) : Prop :=
  v ∈ next u ∧ v ∈ free

theorem LeadsFree.leads {free : List String} {u v : String}
    (h : ReflTransGen (LeadsFree next free) u v) : ReflTransGen (Leads next) u v :=
  ReflTransGen.mono (fun _ _ huv => huv.1) _ _ h

/-- A field that no later field forms a knot with comes after all that it leads
to through free fields. -/
theorem forest_before {free fields before after : List String} {c x : String}
    (hsplit : forest next free fields = before ++ c :: after)
    (hlast : ∀ b ∈ after, ReflTransGen (Leads next) b c → ¬ ReflTransGen (Leads next) c b)
    (hx : ReflTransGen (LeadsFree next free) c x) : x ∈ before ∨ x = c := by
  fun_induction forest next free fields generalizing before after with
  | case1 => simp at hsplit
  | case2 free field rest hf below ih =>
    rename_i ih'
    have hbelow : ∀ u v, u ∈ below ∨ u = field → LeadsFree next free u v →
        v ∈ below ∨ v = field := by
      rintro u v hu ⟨huv, hv⟩
      by_cases he : v = field
      · exact .inr he
      have hv' : v ∈ free.erase field := (List.mem_erase_of_ne he).2 hv
      rcases hu with hu | rfl
      · exact .inl (forest_closed hu huv hv')
      · exact .inl (mem_forest_of_mem huv hv')
    rcases List.append_eq_append_iff.1 hsplit with ⟨as, rfl, has⟩ | ⟨bs, hbs, has⟩
    · cases as with
      | nil =>
        -- the field itself: all that it leads to is below it
        obtain ⟨rfl, rfl⟩ := List.cons_eq_cons.1 has
        rw [List.append_nil]
        exact mem_of_leads _ hbelow (.inr rfl) hx
      | cons a as =>
        obtain ⟨rfl, htail⟩ := List.cons_eq_cons.1 has
        have hway : (x ∈ below ∨ x = field) ∨
            ReflTransGen (LeadsFree next ((free.erase field).filter (· ∉ below))) c x := by
          refine mem_of_leads (fun y => (y ∈ below ∨ y = field) ∨
            ReflTransGen (LeadsFree next ((free.erase field).filter (· ∉ below))) c y)
            (fun u v hu huv => ?_) (.inr .refl) hx
          rcases hu with hu | hu
          · exact .inl (hbelow u v hu huv)
          · by_cases hv : v ∈ below ∨ v = field
            · exact .inl hv
            · rw [not_or] at hv
              exact .inr (hu.tail ⟨huv.1,
                mem_left.2 ⟨(List.mem_erase_of_ne hv.2).2 huv.2, hv.1⟩⟩)
        rcases hway with (hx' | rfl) | hx'
        · exact .inl (List.mem_append_left _ hx')
        · exact .inl (List.mem_append_right _ List.mem_cons_self)
        · refine (ih' htail hlast hx').imp_left fun h => ?_
          exact List.mem_append_right _ (List.mem_cons_of_mem _ h)
    · cases bs with
      | nil =>
        obtain ⟨rfl, rfl⟩ := List.cons_eq_cons.1 has
        rw [List.append_nil] at hbs
        exact hbs ▸ mem_of_leads _ hbelow (.inr rfl) hx
      | cons b bs =>
        obtain ⟨rfl, rfl⟩ := List.cons_eq_cons.1 has
        -- the field comes later and leads here, so no chain leads back to it
        have hback : ¬ ReflTransGen (Leads next) c field := by
          refine hlast field (List.mem_append_right _ List.mem_cons_self) ?_
          have hc : c ∈ below := hbs ▸ List.mem_append_right _ List.mem_cons_self
          obtain ⟨f, hfn, hfc⟩ := forest_sound hc
          exact .head hfn hfc
        refine ih hbs (fun b hb => hlast b (List.mem_append_left _ hb)) ?_
        refine mem_of_leads (ReflTransGen (LeadsFree next (free.erase field)) c)
          (fun u v hu huv => hu.tail ⟨huv.1, (List.mem_erase_of_ne ?_).2 huv.2⟩) .refl hx
        rintro rfl
        exact hback ((LeadsFree.leads hu).tail huv.1)
  | case3 free field rest hf ih => exact ih hsplit hlast hx

/-! ## The whole search -/

section

variable {fields : List String} (hnodup : fields.Nodup)

include hnodup

theorem mem_finishOrder {x : String} :
    x ∈ finishOrder next fields (fields.map .enter) ↔ x ∈ fields := by
  rw [finishOrder_enter hnodup]
  exact ⟨forest_subset, fun h => mem_forest_of_mem h h⟩

theorem nodup_finishOrder : (finishOrder next fields (fields.map .enter)).Nodup := by
  rw [finishOrder_enter hnodup]
  exact nodup_forest hnodup fields

/-- A field that no later field forms a knot with comes after all that it leads to. -/
theorem finished_before (hnext : ∀ u, ∀ v ∈ next u, v ∈ fields) {before after : List String}
    {c x : String} (hsplit : finishOrder next fields (fields.map .enter) = before ++ c :: after)
    (hlast : ∀ b ∈ after, ReflTransGen (Leads next) b c → ¬ ReflTransGen (Leads next) c b)
    (hx : ReflTransGen (Leads next) c x) : x ∈ before ∨ x = c := by
  rw [finishOrder_enter hnodup] at hsplit
  exact forest_before hsplit hlast (ReflTransGen.mono (fun u v huv => ⟨huv, hnext u v huv⟩) _ _ hx)

end

end Formulary.Graph
