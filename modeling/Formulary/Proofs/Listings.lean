/-
  The lists of fields in faults.

  The path of a search that comes back to one of its fields holds a circle.  A group of
  fields that refer to each other is listed by name, with its first field again at the
  end: a group of one field or two is a circle in this order, a larger one need not be.

  * `IsCircle`: a walk of references from a field back to itself;
  * `IsGroupByName`: three fields or more that lead to each other, listed by name;
  * `Graph.isCircle_circle`, `Graph.NextGroup.isListing`: what paths and groups list;
  * `ListedBelow`: a listing of fields to which a field leads;
  * `ListedBelow.congr`: it depends only on the references below the field.
-/
import Formulary.Graph.Cycles
import Formulary.Proofs.Circles
import Mathlib.Data.List.Chain

namespace Formulary

open Relation

/-- A walk of references from a field back to itself. -/
structure IsCircle (r : String → String → Prop) (fields : List String) : Prop where
  long : 2 ≤ fields.length
  closed : fields.head? = fields.getLast?
  steps : fields.IsChain r

/-- Three fields or more that lead to each other among themselves, in the order of their
names and with the first of them again at the end. -/
def IsGroupByName (r : String → String → Prop) (fields : List String) : Prop :=
  ∃ group : NameSet, 3 ≤ group.names.length ∧ fields = group.names ++ group.names.take 1 ∧
    ∀ u ∈ group, ∀ v ∈ group, TransGen (fun a b => a ∈ group ∧ b ∈ group ∧ r a b) u v

/-- What a fault lists: a circle, or a group by name. -/
def IsListing (r : String → String → Prop) (fields : List String) : Prop :=
  IsCircle r fields ∨ IsGroupByName r fields

/-- A listing depends only on what its fields refer to. -/
theorem IsListing.congr {r r' : String → String → Prop} {fields : List String}
    (h : IsListing r fields) (hr : ∀ u ∈ fields, ∀ v, r u v → r' u v) : IsListing r' fields := by
  rcases h with hcircle | ⟨group, hlong, rfl, hgroup⟩
  · exact .inl ⟨hcircle.long, hcircle.closed,
      hcircle.steps.imp_of_mem_imp fun u v hu _ => hr u hu v⟩
  · refine .inr ⟨group, hlong, rfl, fun u hu v hv => TransGen.mono ?_ _ _ (hgroup u hu v hv)⟩
    exact fun a b h => ⟨h.1, h.2.1, hr a (List.mem_append_left _ (NameSet.mem_names.2 h.1)) b h.2.2⟩

theorem leads_of_isChain {r : String → String → Prop} {u v : String} {rest : List String}
    (h : (u :: rest).IsChain r) (hv : v ∈ u :: rest) : ReflTransGen r u v := by
  induction rest generalizing u with
  | nil =>
    obtain rfl := List.mem_singleton.1 hv
    exact .refl
  | cons w rest ih =>
    obtain ⟨huw, hrest⟩ := List.isChain_cons_cons.1 h
    rcases List.mem_cons.1 hv with rfl | hv
    · exact .refl
    · exact .head huw (ih hrest hv)

namespace Graph

variable {g : Graph} {within : NameSet} {done group : List String} {u v : String}

/-! ## Paths -/

theorem circle_eq {path : List String} {field : String} (h : field ∈ path) :
    ∃ before after, path = before ++ field :: after ∧
      circle path field = field :: after ++ [field] := by
  induction path with
  | nil => exact absurd h List.not_mem_nil
  | cons head rest ih =>
    by_cases hhead : head = field
    · exact ⟨[], rest, by rw [hhead]; rfl, by simp [circle, hhead]⟩
    · obtain ⟨before, after, rfl, hcircle⟩ := ih ((List.mem_cons.1 h).resolve_left (Ne.symm hhead))
      refine ⟨head :: before, after, rfl, ?_⟩
      rw [← hcircle]
      simp [circle, hhead]

/-- A walk that comes back to one of its fields ends in a circle, which starts from this
field. -/
theorem isCircle_circle {r : String → String → Prop} {path : List String} {field : String}
    (hpath : (path ++ [field]).IsChain r) (h : field ∈ path) :
    IsCircle r (circle path field) ∧ ∀ u ∈ circle path field, ReflTransGen r field u := by
  obtain ⟨before, after, rfl, hcircle⟩ := circle_eq h
  rw [List.append_assoc] at hpath
  have hsteps : (field :: after ++ [field]).IsChain r := hpath.right_of_append
  rw [hcircle]
  refine ⟨⟨by simp, ?_, hsteps⟩, fun u hu => leads_of_isChain hsteps hu⟩
  rw [List.getLast?_concat]
  rfl

/-! ## Groups -/

theorem mem_grouped {of : String → List String} {taken fields : List String}
    (h : group ∈ grouped of taken fields) : ∃ field, group = of field := by
  induction fields generalizing taken with
  | nil => exact absurd h List.not_mem_nil
  | cons field rest ih =>
    rw [grouped] at h
    split at h
    · exact ih h
    · rcases List.mem_cons.1 h with rfl | h
      · exact ⟨field, rfl⟩
      · exact ih h

/-- The members of a group are in the order of their names. -/
theorem sorted_of_mem_components (h : group ∈ g.components within) :
    group.Pairwise (· < ·) := by
  obtain ⟨field, rfl⟩ := mem_grouped h
  exact (NameSet.sorted _).filter _

/-- A group is the list of the names of a set, if it has the same members. -/
theorem group_eq_names {s : NameSet} (hgroup : group ∈ g.components within)
    (h : ∀ v, v ∈ group ↔ v ∈ s) : group = s.names := by
  have hset : (⟨group, sorted_of_mem_components hgroup⟩ : NameSet) = s := NameSet.ext_mem h
  exact congrArg NameSet.names hset

namespace NextGroup

/-- The members of a group lead to each other inside the group. -/
theorem leads (h : g.NextGroup within done group) (hu : u ∈ group) (hv : v ∈ group) :
    ReflTransGen (fun a b => a ∈ group ∧ b ∈ group ∧ g.Reads a b) u v := by
  have hway := ((h.knot u hu v).1 hv).1
  induction hway using ReflTransGen.head_induction_on with
  | refl => exact .refl
  | head hab hbv ih =>
    have hb := (h.knot _ hu _).2 ⟨.single hab, hbv.trans ((h.knot _ hv _).1 hu).1⟩
    exact .head ⟨hu, hb, hab.2.2⟩ (ih hb)

/-- Of two members each reads the other one, if there are no more. -/
theorem reads_of_two (h : g.NextGroup within done group) (hu : u ∈ group) (hv : v ∈ group)
    (hne : u ≠ v) (htwo : ∀ x ∈ group, x = u ∨ x = v) : g.Reads u v := by
  by_contra hnot
  refine hne (mem_of_leads (u = ·) (fun a b ha hab => ?_) rfl (h.leads hu hv))
  obtain ⟨-, hb, hreads⟩ := hab
  subst ha
  rcases htwo b hb with rfl | rfl
  · rfl
  · exact absurd hreads hnot

/-- A cyclic group is listed as a circle if it has one member or two, and by name if it
has more. -/
theorem isListing (h : g.NextGroup within done group) (hsorted : group.Pairwise (· < ·))
    (hcyclic : g.isCyclic group = true) : IsListing g.Reads (group ++ group.take 1) := by
  match group, h, hsorted, hcyclic with
  | [], h, _, _ => exact absurd rfl h.nonempty
  | [u], h, _, hcyclic =>
    have hself : u ∈ g.precedentsOf u := of_decide_eq_true hcyclic
    exact .inl ⟨by simp, by simp, List.isChain_pair.2 hself⟩
  | [u, v], h, _, _ =>
    have hne : u ≠ v := by simpa using h.nodup
    have huv : g.Reads u v := h.reads_of_two (by simp) (by simp) hne (by simp)
    have hvu : g.Reads v u := h.reads_of_two (by simp) (by simp) hne.symm (by simp)
    exact .inl ⟨by simp, by simp, by simp [huv, hvu]⟩
  | u :: v :: w :: rest, h, hsorted, _ =>
    refine .inr ⟨⟨u :: v :: w :: rest, hsorted⟩, by simp, rfl, fun a ha b hb => ?_⟩
    -- the way from a member to another takes a step, and goes on from there
    obtain ⟨c, hc, hne⟩ : ∃ c ∈ u :: v :: w :: rest, c ≠ a := by
      by_cases hau : a = u
      · refine ⟨v, by simp, fun hva => ?_⟩
        have hnodup := h.nodup
        simp [hva, hau] at hnodup
      · exact ⟨u, by simp, Ne.symm hau⟩
    exact ((reflTransGen_iff_eq_or_transGen.1 (h.leads ha hc)).resolve_left hne).trans_left
      (h.leads hc hb)

end NextGroup

end Graph

/-! ## Below a field -/

/-- A listing of fields to which a field leads. -/
structure ListedBelow (r : String → String → Prop) (field : String) (fields : List String) :
    Prop where
  listing : IsListing r fields
  below : ∀ u ∈ fields, ReflTransGen r field u

namespace ListedBelow

variable {r r' : String → String → Prop} {field other : String} {fields : List String}

theorem head (h : ListedBelow r other fields) (hreads : r field other) :
    ListedBelow r field fields :=
  ⟨h.listing, fun u hu => .head hreads (h.below u hu)⟩

/-- A listing below a field depends only on the references below the field. -/
theorem congr (h : ListedBelow r field fields)
    (hr : ∀ u, ReflTransGen r field u → ∀ v, r u v → r' u v) : ListedBelow r' field fields := by
  refine ⟨h.listing.congr fun u hu => hr u (h.below u hu), fun u hu => ?_⟩
  have hway := h.below u hu
  clear hu
  induction hway with
  | refl => exact .refl
  | tail hway hstep ih => exact ih.tail (hr _ hway _ hstep)

/-- A chain of fields that comes back to one of them lists a circle. -/
theorem circle {chain : List String} (hchain : (chain ++ [field]).IsChain r)
    (h : field ∈ chain) : ListedBelow r field (Graph.circle chain field) :=
  have hcircle := Graph.isCircle_circle hchain h
  ⟨.inl hcircle.1, hcircle.2⟩

/-- The members of a cyclic group of a set are listed below each of them. -/
theorem group {g : Graph} {within : NameSet} {group : List String}
    (hgroup : group ∈ g.components within) (hcyclic : g.isCyclic group = true)
    (hfield : field ∈ group) : ListedBelow g.Reads field (group ++ group.take 1) := by
  obtain ⟨done, hnext⟩ := Graph.nextGroup_of_mem hgroup
  refine ⟨hnext.isListing (Graph.sorted_of_mem_components hgroup) hcyclic, fun u hu => ?_⟩
  have hmem : u ∈ group := (List.mem_append.1 hu).elim id List.mem_of_mem_take
  exact ReflTransGen.mono (fun a b h => h.2.2) _ _ (hnext.leads hfield hmem)

end ListedBelow

end Formulary
