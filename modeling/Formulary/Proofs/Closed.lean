/-
  The circles that the search for them closes.

  The search keeps the path to the field it is at.  Its circles are found along the forest of
  the fields that it enters: below a field, those that come back to it or to a field before it
  on the path.

  * `Graph.closed`: the circles, by recursion on the forest;
  * `Graph.search_enter`: the search is this recursion;
  * `Graph.RepeatFree`: a walk back to its start that repeats no other field;
  * `Graph.repeatFree_of_mem_closed`: nothing else is found;
  * `Graph.exists_closed_of_circle`: of all fields on circles, one is met first among those
    that lead to each other, and the search comes back to it;
  * `Graph.cycles_iff_isCyclic`: the circles found and the cyclic groups.
-/
import Formulary.Proofs.Tarjan

namespace Formulary.Graph

open Relation

variable {next : String → List String} {free path fields : List String}

/-- The circles that are closed from some fields on, when the fields of a path are entered
already. -/
def closed (next : String → List String) (free path fields : List String) : List (List String) :=
  match fields with
  | [] => []
  | field :: rest =>
    if field ∈ path then circle path field :: closed next free path rest
    else if field ∈ free then
      let below := forest next (free.erase field) (next field)
      closed next (free.erase field) (path ++ [field]) (next field) ++
        closed next ((free.erase field).filter (· ∉ below)) path rest
    else closed next free path rest
termination_by (free.length, fields.length)
decreasing_by
  · exact Prod.Lex.right _ (by simp)
  · rename_i h
    have := List.length_erase_of_mem h
    have := List.length_pos_of_mem h
    exact Prod.Lex.left _ _ (by omega)
  · rename_i h
    have := List.length_erase_of_mem h
    have := List.length_pos_of_mem h
    exact Prod.Lex.left _ _ (Nat.lt_of_le_of_lt (List.length_filter_le _ _) (by omega))
  · exact Prod.Lex.right _ (by simp)

/-! ## The search and the forest -/

theorem forest_cons_of_not_mem {field : String} {rest : List String} (h : field ∉ free) :
    forest next free (field :: rest) = forest next free rest := by
  rw [forest, if_neg h]

/-- The fields of a path are entered: they differ, and none of them is free. -/
structure Entered (free path : List String) : Prop where
  nodup_free : free.Nodup
  nodup_path : path.Nodup
  apart : ∀ f ∈ path, f ∉ free

namespace Entered

variable (h : Entered free path) {field : String} {below : List String}

include h

theorem enter (hfield : field ∈ free) : Entered (free.erase field) (path ++ [field]) where
  nodup_free := h.nodup_free.erase field
  nodup_path := by
    refine List.nodup_append.2 ⟨h.nodup_path, List.nodup_singleton field, fun f hf g hg he => ?_⟩
    rw [List.mem_singleton.1 hg] at he
    exact h.apart f hf (he ▸ hfield)
  apart := fun f hf hmem => by
    rcases List.mem_append.1 hf with hf | hf
    · exact h.apart f hf (List.mem_of_mem_erase hmem)
    · exact h.nodup_free.not_mem_erase (List.mem_singleton.1 hf ▸ hmem)

theorem left : Entered ((free.erase field).filter (· ∉ below)) path where
  nodup_free := (h.nodup_free.erase field).filter _
  nodup_path := h.nodup_path
  apart := fun f hf hmem => h.apart f hf (List.mem_of_mem_erase (mem_left.1 hmem).1)

end Entered

/-- What is left free by some fields is what the later ones leave of what the first one does. -/
theorem filter_forest_cons {field : String} {rest : List String} (hfree : free.Nodup)
    (hfield : field ∈ free) :
    let below := forest next (free.erase field) (next field)
    let left := (free.erase field).filter (· ∉ below)
    free.filter (· ∉ forest next free (field :: rest)) =
      left.filter (· ∉ forest next left rest) := by
  intro below left
  have hleft : left = free.filter (· ∉ forest next free [field]) :=
    filter_forest_singleton hfree hfield
  rw [forest_cons hfree hfield, ← hleft, hleft, List.filter_filter]
  refine List.filter_congr fun x _ => ?_
  simp [Bool.and_comm]

/-- The search enters some fields, and does what is to be done later with what is left free. -/
theorem search_enter (h : Entered free path) (later : List Visit) :
    search next free path (fields.map .enter ++ later) = closed next free path fields ++
      search next (free.filter (· ∉ forest next free fields)) path later := by
  fun_induction closed next free path fields generalizing later with
  | case1 free path =>
    rw [forest, List.filter_eq_self.2 (by simp)]
    rfl
  | case2 free path field rest hf ih =>
    rw [List.map_cons, List.cons_append, search, if_pos hf, ih h,
      forest_cons_of_not_mem (h.apart field hf), List.cons_append]
  | case3 free path field rest hf hmem below ih ih' =>
    rw [List.map_cons, List.cons_append, search, if_neg hf, if_pos hmem, ih (h.enter hmem), search,
      List.dropLast_concat, ih' h.left, List.append_assoc, filter_forest_cons h.nodup_free hmem]
  | case4 free path field rest hf hmem ih =>
    rw [List.map_cons, List.cons_append, search, if_neg hf, if_neg hmem, ih h,
      forest_cons_of_not_mem hmem]

theorem nodup_eraseDups (names : List String) : names.eraseDups.Nodup := by
  induction hn : names.length using Nat.strongRecOn generalizing names with
  | _ n ih =>
    cases names with
    | nil => exact List.nodup_nil
    | cons name rest =>
      rw [List.eraseDups_cons, List.nodup_cons, List.mem_eraseDups]
      refine ⟨by simp, ih _ ?_ _ rfl⟩
      rw [← hn, List.length_cons]
      exact Nat.lt_succ_of_le (List.length_filter_le _ _)

theorem entered_names (g : Graph) : Entered g.names.eraseDups [] :=
  ⟨nodup_eraseDups g.names, List.nodup_nil, fun _ hf => absurd hf List.not_mem_nil⟩

/-- So the circles found are those that are closed from all fields on. -/
theorem cycles_eq_closed (g : Graph) :
    g.cycles = closed g.precedentsOf g.names.eraseDups [] g.fields.names := by
  calc g.cycles = search g.precedentsOf g.names.eraseDups [] (g.fields.names.map .enter ++ []) := by
        rw [List.append_nil]
        rfl
    _ = closed g.precedentsOf g.names.eraseDups [] g.fields.names := by
        rw [search_enter (entered_names g), search, List.append_nil]

/-! ## What is found -/

/-- A walk from a field back to itself that repeats no other field. -/
def RepeatFree (r : String → String → Prop) (fields : List String) : Prop :=
  ∃ field between, fields = field :: (between ++ [field]) ∧ (field :: between).Nodup ∧
    fields.IsChain r

theorem repeatFree_of_mem_closed (h : Entered free path)
    (hsteps : ∀ f ∈ fields, (path ++ [f]).IsChain (Leads next)) {found : List String}
    (hfound : found ∈ closed next free path fields) : RepeatFree (Leads next) found := by
  fun_induction closed next free path fields with
  | case1 => exact absurd hfound List.not_mem_nil
  | case2 free path field rest hf ih =>
    obtain ⟨hfield, hrest⟩ := List.forall_mem_cons.1 hsteps
    rcases List.mem_cons.1 hfound with rfl | hfound
    · obtain ⟨before, after, rfl, hcircle⟩ := circle_eq hf
      exact ⟨field, after, hcircle, (List.nodup_append.1 h.nodup_path).2.1,
        (isCircle_circle hfield hf).1.steps⟩
    · exact ih h hrest hfound
  | case3 free path field rest hf hmem below ih ih' =>
    obtain ⟨hfield, hrest⟩ := List.forall_mem_cons.1 hsteps
    rcases List.mem_append.1 hfound with hfound | hfound
    · refine ih (h.enter hmem) (fun f hnext => ?_) hfound
      refine List.isChain_append.2 ⟨hfield, List.isChain_singleton f, ?_⟩
      simpa [Leads] using hnext
    · exact ih' h.left hrest hfound
  | case4 free path field rest hf hmem ih =>
    exact ih h (List.forall_mem_cons.1 hsteps).2 hfound

/-- The fields of such a walk lead to each other. -/
theorem RepeatFree.leads {r : String → String → Prop} {fields : List String}
    (h : RepeatFree r fields) {start u : String} (hstart : fields.head? = some start)
    (hu : u ∈ fields) : ReflTransGen r start u ∧ ReflTransGen r u start := by
  obtain ⟨field, between, rfl, -, hsteps⟩ := h
  obtain rfl : field = start := Option.some.inj hstart
  refine ⟨leads_of_isChain hsteps hu, ?_⟩
  obtain ⟨before, after, hsplit⟩ := List.append_of_mem hu
  have hlast : (u :: after).getLast? = some field := by
    have hall : (field :: (between ++ [field])).getLast? = some field := by
      rw [← List.cons_append, List.getLast?_concat]
    rwa [hsplit, List.getLast?_append_cons] at hall
  rw [hsplit] at hsteps
  exact leads_of_isChain hsteps.right_of_append (List.mem_of_getLast? hlast)

/-! ## What is not missed -/

/-- A field of the path that comes up is the start of a circle. -/
theorem circle_mem_closed {field : String} (h : field ∈ fields) (hpath : field ∈ path) :
    circle path field ∈ closed next free path fields := by
  fun_induction closed next free path fields with
  | case1 => exact absurd h List.not_mem_nil
  | case2 free path first rest hf ih =>
    rcases List.mem_cons.1 h with rfl | h
    · exact List.mem_cons_self
    · exact List.mem_cons_of_mem _ (ih h hpath)
  | case3 free path first rest hf hmem below ih ih' =>
    have hrest : field ∈ rest := (List.mem_cons.1 h).resolve_left fun he => hf (he ▸ hpath)
    exact List.mem_append_right _ (ih' hrest hpath)
  | case4 free path first rest hf hmem ih =>
    exact ih ((List.mem_cons.1 h).resolve_left fun he => hf (he ▸ hpath)) hpath

theorem head?_circle {field : String} (h : field ∈ path) :
    (circle path field).head? = some field := by
  obtain ⟨_, _, -, hcircle⟩ := circle_eq h
  rw [hcircle]
  rfl

/-- Where a field that is entered refers to one of the path, the search comes back to this. -/
theorem exists_closed_of_back {u v : String} (h : Entered free path)
    (hu : u ∈ forest next free fields) (hv : v ∈ path) (huv : v ∈ next u) :
    ∃ found ∈ closed next free path fields, found.head? = some v := by
  fun_induction closed next free path fields with
  | case1 => simp [forest] at hu
  | case2 free path field rest hf ih =>
    rw [forest_cons_of_not_mem (h.apart field hf)] at hu
    obtain ⟨found, hmem, hhead⟩ := ih h hu hv
    exact ⟨found, List.mem_cons_of_mem _ hmem, hhead⟩
  | case3 free path field rest hf hmem below ih ih' =>
    have hv' : v ∈ path ++ [field] := List.mem_append_left _ hv
    rw [forest, if_pos hmem, List.mem_append, List.mem_cons] at hu
    rcases hu with hu | rfl | hu
    · obtain ⟨found, hfound, hhead⟩ := ih (h.enter hmem) hu hv'
      exact ⟨found, List.mem_append_left _ hfound, hhead⟩
    · exact ⟨_, List.mem_append_left _ (circle_mem_closed huv hv'), head?_circle hv'⟩
    · obtain ⟨found, hfound, hhead⟩ := ih' h.left hu hv
      exact ⟨found, List.mem_append_right _ hfound, hhead⟩
  | case4 free path field rest hf hmem ih =>
    rw [forest_cons_of_not_mem hmem] at hu
    exact ih h hu hv

/-- A way on which every step is also one of another kind. -/
theorem transGen_of_steps {r r' : String → String → Prop} {u v : String} (h : TransGen r u v)
    (hsteps : ∀ a b, ReflTransGen r u a → r a b → ReflTransGen r b v → r' a b) :
    TransGen r' u v := by
  induction h using TransGen.head_induction_on with
  | single hab => exact .single (hsteps _ _ .refl hab .refl)
  | head hab hbv ih =>
    refine .head (hsteps _ _ .refl hab hbv.to_reflTransGen) (ih fun a b ha => ?_)
    exact hsteps a b (.head hab ha)

/-- What is entered below a field that is entered, or is this field, leads to no other free
field. -/
theorem leadsFree_below {field u v : String}
    (hu : u ∈ forest next (free.erase field) (next field) ∨ u = field)
    (huv : ReflTransGen (LeadsFree next free) u v) :
    v ∈ forest next (free.erase field) (next field) ∨ v = field := by
  refine mem_of_leads (fun v => v ∈ forest next (free.erase field) (next field) ∨ v = field)
    (fun a b ha hab => ?_) hu huv
  by_cases he : b = field
  · exact .inr he
  have hb : b ∈ free.erase field := (List.mem_erase_of_ne he).2 hab.2
  rcases ha with ha | rfl
  · exact .inl (forest_closed ha hab.1 hb)
  · exact .inl (mem_forest_of_mem hab.1 hb)

/-- A field on a circle of free fields that is entered: the search closes a circle of fields
that lead to it and to which it leads. -/
theorem exists_closed_of_circle {c : String} (h : Entered free path)
    (hc : c ∈ forest next free fields) (hcircle : TransGen (LeadsFree next free) c c) :
    ∃ found ∈ closed next free path fields, ∃ v, found.head? = some v ∧
      ReflTransGen (Leads next) c v ∧ ReflTransGen (Leads next) v c := by
  fun_induction closed next free path fields with
  | case1 => simp [forest] at hc
  | case2 free path field rest hf ih =>
    rw [forest_cons_of_not_mem (h.apart field hf)] at hc
    obtain ⟨found, hfound, hv⟩ := ih h hc hcircle
    exact ⟨found, List.mem_cons_of_mem _ hfound, hv⟩
  | case3 free path field rest hf hmem below ih ih' =>
    by_cases hknot : ReflTransGen (LeadsFree next free) c field ∧
        ReflTransGen (LeadsFree next free) field c
    · -- the field is the first of the knot, and the last step of a circle comes back to it
      obtain ⟨u, hfu, huf⟩ :=
        TransGen.tail'_iff.1 ((hcircle.trans_right hknot.2).trans_left hknot.1)
      have hfield : field ∈ path ++ [field] := List.mem_append_right _ List.mem_cons_self
      have hfound : ∃ found ∈ closed next (free.erase field) (path ++ [field]) (next field),
          found.head? = some field := by
        rcases leadsFree_below (.inr rfl) hfu with hu | rfl
        · exact exists_closed_of_back (h.enter hmem) hu hfield huf.1
        · exact ⟨_, circle_mem_closed huf.1 hfield, head?_circle hfield⟩
      obtain ⟨found, hfound, hhead⟩ := hfound
      exact ⟨found, List.mem_append_left _ hfound, field, hhead, LeadsFree.leads hknot.1,
        LeadsFree.leads hknot.2⟩
    · -- otherwise no circle through `c` meets the field
      have hne (b : String) (hcb : ReflTransGen (LeadsFree next free) c b)
          (hbc : ReflTransGen (LeadsFree next free) b c) : b ≠ field :=
        fun he => hknot (he ▸ ⟨hcb, hbc⟩)
      rw [forest, if_pos hmem, List.mem_append, List.mem_cons] at hc
      rcases hc with hc | rfl | hc
      · obtain ⟨found, hfound, hv⟩ := ih (h.enter hmem) hc <|
          transGen_of_steps hcircle fun a b hca hab hbc =>
            ⟨hab.1, (List.mem_erase_of_ne (hne b (hca.tail hab) hbc)).2 hab.2⟩
        exact ⟨found, List.mem_append_left _ hfound, hv⟩
      · exact absurd rfl (hne _ .refl .refl)
      · obtain ⟨hcfree, hcbelow⟩ := mem_left.1 (forest_subset hc)
        obtain ⟨found, hfound, hv⟩ := ih' h.left hc <|
          transGen_of_steps hcircle fun a b hca hab hbc => by
            have hb := hne b (hca.tail hab) hbc
            refine ⟨hab.1, mem_left.2 ⟨(List.mem_erase_of_ne hb).2 hab.2, fun hbelow => ?_⟩⟩
            exact (leadsFree_below (.inl hbelow) hbc).elim hcbelow (hne c .refl .refl)
        exact ⟨found, List.mem_append_right _ hfound, hv⟩
  | case4 free path field rest hf hmem ih =>
    rw [forest_cons_of_not_mem hmem] at hc
    exact ih h hc hcircle

/-! ## The circles of a graph -/

variable {g : Graph} {u v : String}

theorem reads_mem_fields (h : g.Reads u v) : u ∈ g.fields := by
  obtain ⟨names, hnames, -⟩ := mem_precedentsOf.1 h
  exact mem_fields.2 (by rw [hnames]; rfl)

/-- A way to a field with precedents passes only by such fields. -/
theorem readsWithin_fields (hv : v ∈ g.fields) (h : ReflTransGen g.Reads u v) :
    u ∈ g.fields ∧ ReflTransGen (g.ReadsWithin g.fields) u v := by
  induction h using ReflTransGen.head_induction_on with
  | refl => exact ⟨hv, .refl⟩
  | head hab _ ih =>
    have ha := reads_mem_fields hab
    exact ⟨ha, .head ⟨ha, ih.1, hab⟩ ih.2⟩

theorem repeatFree_of_mem_cycles {found : List String} (h : found ∈ g.cycles) :
    RepeatFree g.Reads found := by
  rw [cycles_eq_closed] at h
  exact repeatFree_of_mem_closed (entered_names g) (fun f _ => List.isChain_singleton f) h

/-- A circle lies in a cyclic group. -/
theorem RepeatFree.exists_group {found : List String} (h : RepeatFree g.Reads found) :
    ∃ group ∈ g.components g.fields, g.isCyclic group = true ∧ ∀ u ∈ found, u ∈ group := by
  obtain ⟨c, hhead, d, hcd, hd⟩ : ∃ c, found.head? = some c ∧ ∃ d, g.Reads c d ∧ d ∈ found := by
    obtain ⟨field, between, rfl, -, hsteps⟩ := h
    cases between with
    | nil => exact ⟨field, rfl, field, List.isChain_pair.1 hsteps, List.mem_cons_self⟩
    | cons d rest => exact ⟨field, rfl, d, (List.isChain_cons_cons.1 hsteps).1, by simp⟩
  have hfield := reads_mem_fields hcd
  obtain ⟨group, hgroup, hmem⟩ := exists_component (g := g) hfield
  obtain ⟨done, hnext⟩ := nextGroup_of_mem hgroup
  have hd' := readsWithin_fields hfield (h.leads hhead hd).2
  refine ⟨group, hgroup, (hnext.isCyclic_iff hmem).2 (.head' ⟨hfield, hd'.1, hcd⟩ hd'.2),
    fun u hu => (hnext.knot c hmem u).2 ?_⟩
  obtain ⟨hcu, huc⟩ := h.leads hhead hu
  obtain ⟨hu', hback⟩ := readsWithin_fields hfield huc
  exact ⟨(readsWithin_fields hu' hcu).2, hback⟩

/-- A cyclic group holds a circle that is found. -/
theorem exists_found_of_isCyclic {group : List String} (hgroup : group ∈ g.components g.fields)
    (hcyclic : g.isCyclic group = true) : ∃ found ∈ g.cycles, ∀ u ∈ found, u ∈ group := by
  obtain ⟨done, hnext⟩ := nextGroup_of_mem hgroup
  obtain ⟨c, hc⟩ := List.exists_mem_of_ne_nil group hnext.nonempty
  have hfield := hnext.inside c hc
  have hcircle : TransGen (LeadsFree g.precedentsOf g.names.eraseDups) c c :=
    TransGen.mono (fun u v h => ⟨h.2.2, List.mem_eraseDups.2 (precedent_mem_names h.2.2)⟩) _ _
      ((hnext.isCyclic_iff hc).1 hcyclic)
  obtain ⟨b, -, hbc⟩ := TransGen.tail'_iff.1 hcircle
  obtain ⟨found, hfound, v, hhead, hcv, hvc⟩ := exists_closed_of_circle (entered_names g)
    (mem_forest_of_mem (NameSet.mem_names.2 hfield) hbc.2) hcircle
  rw [← cycles_eq_closed] at hfound
  refine ⟨found, hfound, fun u hu => (hnext.knot c hc u).2 ?_⟩
  obtain ⟨hvu, huv⟩ := (repeatFree_of_mem_cycles hfound).leads hhead hu
  obtain ⟨hu', hback⟩ := readsWithin_fields hfield (huv.trans hvc)
  exact ⟨(readsWithin_fields hu' (hcv.trans hvu)).2, hback⟩

/-- **Main result.** Every list of fields that the search for circles reports is a walk of
references from a field back to itself that repeats no other field, and lies inside a cyclic
group of all fields with precedents; every such group holds a list that is reported.  So none
is reported exactly if no group is cyclic. -/
theorem cycles_iff_isCyclic (g : Graph) :
    let groups := g.components g.fields
    (∀ found ∈ g.cycles, ∃ field between, found = field :: (between ++ [field]) ∧
      (field :: between).Nodup ∧ found.IsChain fun x y => y ∈ g.precedentsOf x) ∧
    (∀ found ∈ g.cycles, ∃ group ∈ groups, g.isCyclic group = true ∧ ∀ x ∈ found, x ∈ group) ∧
    (∀ group ∈ groups, g.isCyclic group = true → ∃ found ∈ g.cycles, ∀ x ∈ found, x ∈ group) ∧
    (g.cycles = [] ↔ ∀ group ∈ groups, g.isCyclic group = false) := by
  intro groups
  have hin : ∀ found ∈ g.cycles, ∃ group ∈ groups, g.isCyclic group = true ∧
      ∀ x ∈ found, x ∈ group := fun _ hfound => (repeatFree_of_mem_cycles hfound).exists_group
  have hout : ∀ group ∈ groups, g.isCyclic group = true →
      ∃ found ∈ g.cycles, ∀ x ∈ found, x ∈ group := fun _ => exists_found_of_isCyclic
  refine ⟨fun _ => repeatFree_of_mem_cycles, hin, hout, fun hnone group hgroup => ?_,
    fun hnone => ?_⟩
  · refine eq_false_of_ne_true fun hcyclic => ?_
    obtain ⟨found, hfound, -⟩ := hout group hgroup hcyclic
    exact absurd (hnone ▸ hfound) List.not_mem_nil
  · refine List.eq_nil_iff_forall_not_mem.2 fun found hfound => ?_
    obtain ⟨group, hgroup, hcyclic, -⟩ := hin found hfound
    exact Bool.false_ne_true ((hnone group hgroup).symm.trans hcyclic)

end Formulary.Graph
