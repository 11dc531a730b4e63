/-
  Lists of named entries, in the order of their names and each name once.

  The functions are on plain lists, so that a type can hold entries of itself;
  `NameMap` is a list together with the fact that it is sorted.

  * `Entries.find?`, `Entries.insert`, `Entries.erase`;
  * `Entries.find?_insert`, `Entries.find?_erase`: what can be found afterwards;
  * `Entries.sorted_insert`, `Entries.sorted_erase`: the order is kept.
-/

namespace Formulary.Entries

variable {α : Type}

/-- The names increase along the list. -/
def Sorted (entries : List (String × α)) : Prop :=
  entries.Pairwise fun e f => e.1 < f.1

/-- The value under a name. -/
def find? (name : String) (entries : List (String × α)) : Option α :=
  (entries.find? fun e => e.1 == name).map Prod.snd

/-- Puts a value under a name, in place of the one it had. -/
def insert (name : String) (value : α) : List (String × α) → List (String × α)
  | [] => [(name, value)]
  | (other, old) :: rest =>
    if name < other then (name, value) :: (other, old) :: rest
    else if other < name then (other, old) :: insert name value rest
    else (name, value) :: rest

/-- Takes a name out. -/
def erase (name : String) (entries : List (String × α)) : List (String × α) :=
  entries.filter fun e => e.1 != name

/-- The entries put in one after the other: of equal names the last one counts. -/
def ofList (entries : List (String × α)) : List (String × α) :=
  entries.foldl (fun found e => insert e.1 e.2 found) []

/-! ## Look-up -/

theorem eq_of_not_lt {s t : String} (h : ¬ s < t) (h' : ¬ t < s) : s = t :=
  String.le_antisymm (String.not_lt.1 h') (String.not_lt.1 h)

@[simp] theorem find?_nil (name : String) : find? name ([] : List (String × α)) = none := rfl

theorem find?_cons (name other : String) (value : α) (rest : List (String × α)) :
    find? other ((name, value) :: rest) = if name = other then some value else find? other rest := by
  by_cases h : name = other
  · simp [find?, h]
  · have hb : (name == other) = false := by simpa using h
    simp [find?, hb, h]

theorem find?_insert (name other : String) (value : α) (entries : List (String × α)) :
    find? other (insert name value entries) =
      if name = other then some value else find? other entries := by
  induction entries with
  | nil => simp [insert, find?_cons]
  | cons e rest ih =>
    obtain ⟨head, old⟩ := e
    simp only [insert]
    split
    · rw [find?_cons]
    · split
      next h =>
        have hn : ¬ head = name := fun hn => String.lt_irrefl name (by rwa [hn] at h)
        rw [find?_cons, find?_cons, ih]
        grind
      next h h' =>
        obtain rfl := eq_of_not_lt h h'
        simp only [find?_cons]
        grind

theorem find?_erase (name other : String) (entries : List (String × α)) :
    find? other (erase name entries) = if name = other then none else find? other entries := by
  induction entries with
  | nil => simp [erase]
  | cons e rest ih =>
    obtain ⟨head, old⟩ := e
    have he : erase name ((head, old) :: rest) =
        if head = name then erase name rest else (head, old) :: erase name rest := by
      by_cases h : head = name <;> simp [erase, h]
    rw [he, find?_cons]
    split
    · rw [ih]; grind
    · rw [find?_cons, ih]; grind

/-! ## Order -/

theorem mem_insert {name : String} {value : α} {entries : List (String × α)} {e : String × α}
    (h : e ∈ insert name value entries) : e = (name, value) ∨ e ∈ entries := by
  induction entries with
  | nil => simpa [insert] using h
  | cons f rest ih =>
    obtain ⟨head, old⟩ := f
    simp only [insert] at h
    split at h
    · simpa using h
    · split at h
      · rcases List.mem_cons.1 h with h | h
        · exact .inr (List.mem_cons.2 (.inl h))
        · exact (ih h).imp_right (List.mem_cons_of_mem _)
      · rcases List.mem_cons.1 h with h | h
        · exact .inl h
        · exact .inr (List.mem_cons_of_mem _ h)

theorem sorted_insert (name : String) (value : α) {entries : List (String × α)}
    (h : Sorted entries) : Sorted (insert name value entries) := by
  induction entries with
  | nil => simp [insert, Sorted]
  | cons f rest ih =>
    obtain ⟨head, old⟩ := f
    obtain ⟨hd, hr⟩ := List.pairwise_cons.1 h
    simp only [insert]
    split
    next hlt =>
      refine List.pairwise_cons.2 ⟨fun e he => ?_, h⟩
      rcases List.mem_cons.1 he with rfl | he
      · exact hlt
      · exact String.lt_trans hlt (hd e he)
    next hlt =>
      split
      next hgt =>
        refine List.pairwise_cons.2 ⟨fun e he => ?_, ih hr⟩
        rcases mem_insert he with rfl | he
        · exact hgt
        · exact hd e he
      next hgt =>
        obtain rfl := eq_of_not_lt hlt hgt
        exact List.pairwise_cons.2 ⟨hd, hr⟩

theorem sorted_erase (name : String) {entries : List (String × α)} (h : Sorted entries) :
    Sorted (erase name entries) :=
  List.Pairwise.filter _ h

end Formulary.Entries
