/-
  Groups of fields in the order of their references.

  * `Graph.Knotted`: two fields of a set refer to each other inside the set,
    directly or through others;
  * `Graph.NextGroup`: a knot that refers to itself and to what is done;
  * `Graph.Ordered`: groups each of which is next when its turn comes;
  * `Graph.ordered_components`, `Graph.exists_component`: the groups of a set are
    ordered and leave out none of its members;
  * `Graph.Ordered.pairwise`, `Graph.nodup_flatten_components`: earlier groups refer to no
    later ones, and no two share a field;
  * `Graph.NextGroup.isCyclic_iff`: a group is cyclic if its members are on a circle.
-/
import Formulary.Proofs.FinishOrder
import Mathlib.Data.List.Nodup

namespace Formulary.Graph

open Relation

variable {g : Graph} {within : NameSet} {x y z : String}

/-- A field of a set refers to another of the set. -/
def ReadsWithin (g : Graph) (within : NameSet) (u v : String) : Prop :=
  u ∈ within ∧ v ∈ within ∧ g.Reads u v

/-- Two fields of a set refer to each other, directly or through others. -/
def Knotted (g : Graph) (within : NameSet) (u v : String) : Prop :=
  ReflTransGen (g.ReadsWithin within) u v ∧ ReflTransGen (g.ReadsWithin within) v u

theorem Knotted.refl : g.Knotted within x x := ⟨.refl, .refl⟩

theorem Knotted.symm (h : g.Knotted within x y) : g.Knotted within y x := ⟨h.2, h.1⟩

theorem Knotted.trans (h : g.Knotted within x y) (h' : g.Knotted within y z) :
    g.Knotted within x z :=
  ⟨h.1.trans h'.1, h'.2.trans h.2⟩

theorem mem_within_of_reads (hx : x ∈ within) (h : ReflTransGen (g.ReadsWithin within) x y) :
    y ∈ within :=
  mem_of_leads _ (fun _ _ _ h => h.2.1) hx h

/-! ## Users and used fields -/

theorem mem_usersWithin : y ∈ g.usersWithin within x ↔ y ∈ within ∧ g.Reads y x := by
  simp [usersWithin, Reads, NameSet.mem_names]

theorem mem_usedWithin : y ∈ g.usedWithin within x ↔ y ∈ within ∧ g.Reads x y := by
  simp [usedWithin, Reads, and_comm]

theorem reaches_users_iff (hx : x ∈ within) :
    ReflTransGen (Leads (g.usersWithin within)) x y ↔ ReflTransGen (g.ReadsWithin within) y x := by
  constructor
  · intro h
    suffices y ∈ within ∧ ReflTransGen (g.ReadsWithin within) y x from this.2
    refine mem_of_leads (fun y => y ∈ within ∧ ReflTransGen (g.ReadsWithin within) y x)
      (fun u v hu huv => ?_) ⟨hx, .refl⟩ h
    obtain ⟨hv, hvu⟩ := mem_usersWithin.1 huv
    exact ⟨hv, .head ⟨hv, hu.1, hvu⟩ hu.2⟩
  · intro h
    induction h using ReflTransGen.head_induction_on with
    | refl => exact .refl
    | head huv _ ih => exact ih.tail (mem_usersWithin.2 ⟨huv.1, huv.2.2⟩)

theorem reaches_used_iff (hx : x ∈ within) :
    ReflTransGen (Leads (g.usedWithin within)) x y ↔ ReflTransGen (g.ReadsWithin within) x y := by
  constructor
  · intro h
    suffices y ∈ within ∧ ReflTransGen (g.ReadsWithin within) x y from this.2
    refine mem_of_leads (fun y => y ∈ within ∧ ReflTransGen (g.ReadsWithin within) x y)
      (fun u v hu huv => ?_) ⟨hx, .refl⟩ h
    obtain ⟨hv, huv⟩ := mem_usedWithin.1 huv
    exact ⟨hv, hu.2.tail ⟨hu.1, hv, huv⟩⟩
  · exact ReflTransGen.mono (fun u v h => mem_usedWithin.2 ⟨h.2.1, h.2.2⟩) _ _

theorem mem_component (hx : x ∈ within) : y ∈ g.component within x ↔ g.Knotted within x y := by
  have hin : ∀ t ∈ [x], t ∈ within.names := by simpa using NameSet.mem_names.2 hx
  simp only [component, List.mem_filter, decide_eq_true_eq, NameSet.mem_names]
  rw [mem_reach hin fun _ _ _ hv => (mem_usersWithin.1 hv).1,
    mem_reach hin fun _ _ _ hv => (mem_usedWithin.1 hv).1]
  simp only [List.mem_singleton, exists_eq_left, reaches_users_iff hx, reaches_used_iff hx]
  exact and_comm

theorem nodup_component (g : Graph) (within : NameSet) (x : String) :
    (g.component within x).Nodup :=
  (NameSet.nodup _).filter _

/-! ## The order of groups -/

/-- A knot that is not done yet and refers only to itself and to what is done. -/
structure NextGroup (g : Graph) (within : NameSet) (done group : List String) : Prop where
  nonempty : group ≠ []
  nodup : group.Nodup
  inside : ∀ x ∈ group, x ∈ within
  fresh : ∀ x ∈ group, x ∉ done
  knot : ∀ x ∈ group, ∀ y, y ∈ group ↔ g.Knotted within x y
  ready : ∀ x ∈ group, ∀ y ∈ within, g.Reads x y → y ∈ group ∨ y ∈ done

/-- Groups each of which is next when its turn comes. -/
def Ordered (g : Graph) (within : NameSet) (done : List String) : List (List String) → Prop
  | [] => True
  | group :: rest => g.NextGroup within done group ∧ g.Ordered within (group ++ done) rest

/-- The fields of a set in the order in which the search along their users leaves
them, the last first. -/
def lastFirst (g : Graph) (within : NameSet) : List String :=
  (finishOrder (g.usersWithin within) within.names (within.names.map .enter)).reverse

theorem mem_lastFirst : x ∈ g.lastFirst within ↔ x ∈ within := by
  rw [lastFirst, List.mem_reverse, mem_finishOrder (NameSet.nodup within), NameSet.mem_names]

theorem nodup_lastFirst (g : Graph) (within : NameSet) : (g.lastFirst within).Nodup :=
  List.nodup_reverse.2 (nodup_finishOrder (NameSet.nodup within))

/-- Before the first field of a knot come all fields that lead to it along users. -/
theorem mem_after_of_reads {before after : List String} {c : String}
    (hsplit : g.lastFirst within = before ++ c :: after)
    (hfirst : ∀ b ∈ before, ¬ g.Knotted within b c)
    (hx : ReflTransGen (g.ReadsWithin within) x c) : x ∈ after ∨ x = c := by
  have hc : c ∈ within := mem_lastFirst.1 (hsplit ▸ List.mem_append_right _ List.mem_cons_self)
  have hfinish : finishOrder (g.usersWithin within) within.names (within.names.map .enter) =
      after.reverse ++ c :: before.reverse := by
    rw [← List.reverse_reverse (finishOrder ..), ← lastFirst, hsplit]
    simp
  rw [← List.mem_reverse]
  refine finished_before (NameSet.nodup within) (fun _ _ hv => (mem_usersWithin.1 hv).1) hfinish
    (fun b hb hbc hcb => ?_) ((reaches_users_iff hc).2 hx)
  have hb' : b ∈ within :=
    mem_lastFirst.1 (hsplit ▸ List.mem_append_left _ (List.mem_reverse.1 hb))
  exact hfirst b (List.mem_reverse.1 hb)
    ⟨(reaches_users_iff hc).1 hcb, (reaches_users_iff hb').1 hbc⟩

section

variable {before taken rest : List String}

/-- What the knot of a field refers to belongs to it or was taken before. -/
theorem used_taken {c : String} (hsplit : g.lastFirst within = before ++ c :: rest)
    (hbefore : ∀ b ∈ before, b ∈ taken)
    (htaken : ∀ b ∈ taken, ∀ b', g.Knotted within b b' → b' ∈ taken) (hc : c ∉ taken)
    (hx : g.Knotted within c x) (hy : y ∈ within) (hxy : g.Reads x y) :
    g.Knotted within c y ∨ y ∈ taken := by
  classical
  by_contra hno
  obtain ⟨hcy, hyt⟩ := not_or.1 hno
  have hcw : c ∈ within := mem_lastFirst.1 (hsplit ▸ List.mem_append_right _ List.mem_cons_self)
  have hcycle : ReflTransGen (g.ReadsWithin within) c y :=
    hx.1.tail ⟨mem_within_of_reads hcw hx.1, hy, hxy⟩
  have hyr : y ∈ rest := by
    have hmem : y ∈ g.lastFirst within := mem_lastFirst.2 hy
    rw [hsplit, List.mem_append, List.mem_cons] at hmem
    rcases hmem with h | rfl | h
    · exact absurd (hbefore y h) hyt
    · exact absurd Knotted.refl hcy
    · exact h
  -- the first field of the knot of `y` comes after `c`, which leads to it along users
  obtain ⟨d, hd⟩ : ∃ d, rest.find? (fun d => decide (g.Knotted within y d)) = some d :=
    Option.isSome_iff_exists.1 (List.find?_isSome.2 ⟨y, hyr, decide_eq_true Knotted.refl⟩)
  obtain ⟨hyd, as, bs, hrest, has⟩ := List.find?_eq_some_iff_append.1 hd
  have hyd : g.Knotted within y d := of_decide_eq_true hyd
  have hsplit' : g.lastFirst within = (before ++ c :: as) ++ d :: bs := by
    rw [hsplit, hrest, List.append_assoc, List.cons_append]
  have hfirst : ∀ b ∈ before ++ c :: as, ¬ g.Knotted within b d := by
    intro b hb hbd
    rw [List.mem_append, List.mem_cons] at hb
    rcases hb with hb | rfl | hb
    · exact hyt (htaken b (hbefore b hb) y (hbd.trans hyd.symm))
    · exact hcy (hbd.trans hyd.symm)
    · have hnot := has b hb
      rw [decide_eq_true (hyd.trans hbd.symm)] at hnot
      exact Bool.false_ne_true hnot
  rcases mem_after_of_reads hsplit' hfirst (hcycle.trans hyd.1) with hcb | hcd
  · have hnodup := nodup_lastFirst g within
    rw [hsplit, hrest] at hnodup
    have := (List.nodup_cons.1 (List.nodup_append.1 hnodup).2.1).1
    exact this (List.mem_append_right _ (List.mem_cons_of_mem _ hcb))
  · exact hcy (hcd ▸ hyd.symm)

theorem nextGroup_component {c : String} (hsplit : g.lastFirst within = before ++ c :: rest)
    (hbefore : ∀ b ∈ before, b ∈ taken)
    (htaken : ∀ b ∈ taken, ∀ b', g.Knotted within b b' → b' ∈ taken) (hc : c ∉ taken) :
    g.NextGroup within taken (g.component within c) := by
  have hcw : c ∈ within := mem_lastFirst.1 (hsplit ▸ List.mem_append_right _ List.mem_cons_self)
  refine ⟨List.ne_nil_of_mem ((mem_component hcw).2 .refl), nodup_component g within c,
    fun x hx => ?_, fun x hx hxt => ?_, fun x hx y => ?_, fun x hx y hy hxy => ?_⟩
  · exact mem_within_of_reads hcw ((mem_component hcw).1 hx).1
  · exact hc (htaken x hxt c ((mem_component hcw).1 hx).symm)
  · have hcx := (mem_component hcw).1 hx
    rw [mem_component hcw]
    exact ⟨fun h => hcx.symm.trans h, fun h => hcx.trans h⟩
  · rw [mem_component hcw]
    exact used_taken hsplit hbefore htaken hc ((mem_component hcw).1 hx) hy hxy

theorem ordered_grouped (hsplit : g.lastFirst within = before ++ rest)
    (hbefore : ∀ b ∈ before, b ∈ taken)
    (htaken : ∀ b ∈ taken, ∀ b', g.Knotted within b b' → b' ∈ taken) :
    g.Ordered within taken (grouped (g.component within) taken rest) ∧
      ∀ x ∈ rest, x ∈ taken ∨ ∃ group ∈ grouped (g.component within) taken rest, x ∈ group := by
  induction rest generalizing before taken with
  | nil => exact ⟨trivial, fun x hx => absurd hx List.not_mem_nil⟩
  | cons c rest ih =>
    have hsplit' : g.lastFirst within = (before ++ [c]) ++ rest := by simp [hsplit]
    rw [grouped]
    split
    next hct =>
      have hbefore' : ∀ b ∈ before ++ [c], b ∈ taken := by
        simp only [List.mem_append, List.mem_singleton]
        rintro b (hb | rfl)
        · exact hbefore b hb
        · exact hct
      obtain ⟨hordered, hall⟩ := ih hsplit' hbefore' htaken
      refine ⟨hordered, fun x hx => ?_⟩
      rcases List.mem_cons.1 hx with rfl | hx
      · exact .inl hct
      · exact hall x hx
    next hct =>
      have hnext := nextGroup_component hsplit hbefore htaken hct
      have hcw : c ∈ within :=
        mem_lastFirst.1 (hsplit ▸ List.mem_append_right _ List.mem_cons_self)
      have hcc : c ∈ g.component within c := (mem_component hcw).2 .refl
      have hbefore' : ∀ b ∈ before ++ [c], b ∈ g.component within c ++ taken := by
        simp only [List.mem_append, List.mem_singleton]
        rintro b (hb | rfl)
        · exact .inr (hbefore b hb)
        · exact .inl hcc
      have htaken' : ∀ b ∈ g.component within c ++ taken, ∀ b', g.Knotted within b b' →
          b' ∈ g.component within c ++ taken := by
        intro b hb b' hbb'
        rcases List.mem_append.1 hb with hb | hb
        · exact List.mem_append_left _ ((hnext.knot b hb b').2 hbb')
        · exact List.mem_append_right _ (htaken b hb b' hbb')
      obtain ⟨hordered, hall⟩ := ih hsplit' hbefore' htaken'
      refine ⟨⟨hnext, hordered⟩, fun x hx => ?_⟩
      rcases List.mem_cons.1 hx with rfl | hx
      · exact .inr ⟨_, List.mem_cons_self, hcc⟩
      · rcases hall x hx with h | ⟨group, hgroup, hx⟩
        · rcases List.mem_append.1 h with h | h
          · exact .inr ⟨_, List.mem_cons_self, h⟩
          · exact .inl h
        · exact .inr ⟨group, List.mem_cons_of_mem _ hgroup, hx⟩

end

/-- The groups of a set come in the order of their references. -/
theorem ordered_components (g : Graph) (within : NameSet) :
    g.Ordered within [] (g.components within) :=
  (ordered_grouped (List.nil_append _).symm (fun _ h => h) fun _ h => absurd h List.not_mem_nil).1

theorem exists_component (hx : x ∈ within) : ∃ group ∈ g.components within, x ∈ group :=
  ((ordered_grouped (List.nil_append _).symm (fun _ h => h)
    fun _ h => absurd h List.not_mem_nil).2 x (mem_lastFirst.2 hx)).resolve_left List.not_mem_nil

/-! ## Earlier and later groups -/

section

variable {done group : List String} {groups : List (List String)}

theorem Ordered.nextGroup (h : g.Ordered within done groups)
    (hgroup : group ∈ groups) : ∃ done', g.NextGroup within done' group := by
  induction groups generalizing done with
  | nil => exact absurd hgroup List.not_mem_nil
  | cons first rest ih =>
    rcases List.mem_cons.1 hgroup with rfl | hgroup
    · exact ⟨done, h.1⟩
    · exact ih h.2 hgroup

theorem nextGroup_of_mem (h : group ∈ g.components within) :
    ∃ done, g.NextGroup within done group :=
  (ordered_components g within).nextGroup h

theorem Ordered.fresh (h : g.Ordered within done groups) :
    ∀ group ∈ groups, ∀ x ∈ group, x ∈ within ∧ x ∉ done := by
  induction groups generalizing done with
  | nil => exact fun _ hgroup => absurd hgroup List.not_mem_nil
  | cons first rest ih =>
    refine List.forall_mem_cons.2 ⟨fun x hx => ⟨h.1.inside x hx, h.1.fresh x hx⟩, ?_⟩
    exact fun group hgroup x hx =>
      (ih h.2 group hgroup x hx).imp_right fun hnew hd => hnew (List.mem_append_right _ hd)

/-- A group shares no field with a later one, and refers to none of it. -/
theorem Ordered.pairwise (h : g.Ordered within done groups) :
    groups.Pairwise fun earlier later => ∀ x ∈ earlier, ∀ y ∈ later, x ≠ y ∧ ¬ g.Reads x y := by
  induction groups generalizing done with
  | nil => exact .nil
  | cons first rest ih =>
    refine .cons (fun later hlater x hx y hy => ?_) (ih h.2)
    obtain ⟨hin, hnew⟩ := h.2.fresh later hlater y hy
    rw [List.mem_append, not_or] at hnew
    refine ⟨fun he => hnew.1 (he ▸ hx), fun hreads => ?_⟩
    exact (h.1.ready x hx y hin hreads).elim hnew.1 hnew.2

end

theorem nodup_flatten_components (g : Graph) (within : NameSet) :
    (g.components within).flatten.Nodup := by
  refine List.nodup_flatten.2 ⟨fun group hgroup => ?_,
    (ordered_components g within).pairwise.imp fun h x hx hy => ?_⟩
  · obtain ⟨_, hnext⟩ := nextGroup_of_mem hgroup
    exact hnext.nodup
  · exact (h x hx x hy).1 rfl

/-! ## Cyclic groups -/

/-- A group is cyclic if its members are on a circle inside the set. -/
theorem NextGroup.isCyclic_iff {done group : List String} (h : g.NextGroup within done group)
    (hx : x ∈ group) :
    g.isCyclic group = true ↔ TransGen (g.ReadsWithin within) x x := by
  constructor
  · intro hcyclic
    by_cases hother : ∃ y ∈ group, y ≠ x
    · obtain ⟨y, hy, hne⟩ := hother
      have hxy := (h.knot x hx y).1 hy
      rcases reflTransGen_iff_eq_or_transGen.1 hxy.1 with he | ht
      · exact absurd he hne
      · exact ht.trans_left hxy.2
    · -- the field is alone, so it refers to itself
      have hgroup : group = [x] := by
        cases group with
        | nil => exact absurd rfl h.nonempty
        | cons a rest =>
          have ha : a = x := by_contra fun hne => hother ⟨a, List.mem_cons_self, hne⟩
          cases rest with
          | nil => rw [ha]
          | cons b rest =>
            have hb : b = x := by_contra fun hne =>
              hother ⟨b, List.mem_cons_of_mem _ List.mem_cons_self, hne⟩
            have := (List.nodup_cons.1 h.nodup).1
            exact absurd (ha.trans hb.symm ▸ List.mem_cons_self) this
      rw [hgroup] at hcyclic
      have hself : x ∈ g.precedentsOf x := of_decide_eq_true hcyclic
      exact .single ⟨h.inside x hx, h.inside x hx, hself⟩
  · intro hcycle
    cases group with
    | nil => exact absurd hx List.not_mem_nil
    | cons a rest =>
      cases rest with
      | nil =>
        obtain rfl := List.mem_singleton.1 hx
        obtain ⟨y, hxy, hyx⟩ := TransGen.head'_iff.1 hcycle
        have hy := (h.knot x hx y).2 ⟨.single hxy, hyx⟩
        obtain rfl := List.mem_singleton.1 hy
        exact decide_eq_true hxy.2.2
      | cons b rest => simp [isCyclic]

end Formulary.Graph
