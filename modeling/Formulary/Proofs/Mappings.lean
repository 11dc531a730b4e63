/-
  What is left of the mappings of a YAML text.

  The entries of an object have texts for names, so that keys of a mapping which
  differ can have one name: the integer one and the text of its digit, or a truth
  value and its name.  Of such entries the later one counts, and the others are
  gone.

  * `Yaml.Kept`: every mapping became an object with an entry for each of its own;
  * `Yaml.KeysApart`: in every mapping the names of the keys differ;
  * `Yaml.entryValues_eq_ok_iff`: the entries of a mapping, put in one after the other;
  * `Yaml.kept_iff_keysApart`: nothing is lost exactly where the names of keys differ.
-/
import Formulary.Document.Reading
import Formulary.Proofs.Names
import Mathlib

namespace Formulary

/-! ## Entries put in one after the other -/

namespace Entries

variable {α : Type} {name : String} {value : α} {entries pairs : List (String × α)}

/-- Under a new name nothing is replaced. -/
theorem perm_insert_of_notMem (h : name ∉ entries.map Prod.fst) :
    (insert name value entries).Perm ((name, value) :: entries) := by
  induction entries with
  | nil => exact .refl _
  | cons e rest ih =>
    obtain ⟨head, old⟩ := e
    obtain ⟨hne, hrest⟩ := not_or.1 (List.mem_cons.not.1 h)
    simp only [insert]
    split
    · exact .refl _
    next hlt =>
      split
      · exact ((ih hrest).cons _).trans (.swap ..)
      next hgt => exact absurd (eq_of_not_lt hlt hgt) hne

theorem sorted_ofList (pairs : List (String × α)) : Sorted (ofList pairs) := by
  have hfold (start : List (String × α)) (h : Sorted start) :
      Sorted (pairs.foldl (fun found e => insert e.1 e.2 found) start) := by
    induction pairs generalizing start with
    | nil => exact h
    | cons e rest ih => exact ih _ (sorted_insert e.1 e.2 h)
  exact hfold [] .nil

theorem nodup_names_of_sorted (h : Sorted entries) : (entries.map Prod.fst).Nodup := by
  refine List.pairwise_map.2 (h.imp fun {e f} hlt heq => ?_)
  rw [heq] at hlt
  exact String.lt_irrefl _ hlt

theorem perm_foldl_insert {start : List (String × α)}
    (h : (start.map Prod.fst ++ pairs.map Prod.fst).Nodup) :
    (pairs.foldl (fun found e => insert e.1 e.2 found) start).Perm (start ++ pairs) := by
  induction pairs generalizing start with
  | nil => rw [List.append_nil]; exact .refl _
  | cons e rest ih =>
    have hmiddle := List.nodup_middle.1 h
    have hnew : e.1 ∉ start.map Prod.fst := fun hmem =>
      (List.nodup_cons.1 hmiddle).1 (List.mem_append_left _ hmem)
    have hinsert : (insert e.1 e.2 start).Perm ((e.1, e.2) :: start) :=
      perm_insert_of_notMem hnew
    have hnodup : ((insert e.1 e.2 start).map Prod.fst ++ rest.map Prod.fst).Nodup :=
      (((hinsert.map Prod.fst).append_right _).nodup_iff).2 hmiddle
    exact (ih hnodup).trans ((hinsert.append_right rest).trans List.perm_middle.symm)

/-- All entries are there exactly if their names differ. -/
theorem perm_ofList_iff : (ofList pairs).Perm pairs ↔ (pairs.map Prod.fst).Nodup :=
  ⟨fun h => (h.map Prod.fst).nodup_iff.1 (nodup_names_of_sorted (sorted_ofList pairs)),
    fun h => perm_foldl_insert h⟩

end Entries

namespace Yaml

/-- An entry of an object is what an entry of a mapping comes to: the text of its key,
and its content as a value. -/
def Converts (entry : Yaml × Yaml) (pair : String × Value) : Prop :=
  keyText? entry.1 = some pair.1 ∧ toValue .other entry.2 = .ok pair.2

mutual

/-- Every mapping inside became an object that has, in some order, exactly the entries
that the entries of the mapping come to. -/
def Kept : Yaml → Value → Prop
  | sequence items, v => ∃ vs, v = .array vs ∧ ItemsKept items vs
  | mapping entries, v => ∃ found pairs, v = .object found ∧ List.Forall₂ Converts entries pairs ∧
      found.Perm pairs ∧ EntriesKept entries pairs
  | tagged _ content, v => Kept content v
  | _, _ => True

def ItemsKept : List Yaml → List Value → Prop
  | [], vs => vs = []
  | item :: rest, vs => ∃ v vs', vs = v :: vs' ∧ Kept item v ∧ ItemsKept rest vs'

def EntriesKept : List (Yaml × Yaml) → List (String × Value) → Prop
  | [], pairs => pairs = []
  | (_, content) :: rest, pairs =>
    ∃ pair pairs', pairs = pair :: pairs' ∧ Kept content pair.2 ∧ EntriesKept rest pairs'

end

mutual

/-- In every mapping inside, the keys have different texts. -/
def KeysApart : Yaml → Prop
  | sequence items => ItemsKeysApart items
  | mapping entries => (entries.map fun entry => keyText? entry.1).Nodup ∧ EntriesKeysApart entries
  | tagged _ content => KeysApart content
  | _ => True

def ItemsKeysApart : List Yaml → Prop
  | [] => True
  | item :: rest => KeysApart item ∧ ItemsKeysApart rest

def EntriesKeysApart : List (Yaml × Yaml) → Prop
  | [] => True
  | (_, content) :: rest => KeysApart content ∧ EntriesKeysApart rest

end

/-! ## The entries of a mapping -/

section

variable {α β ε : Type} {x : Except ε α} {b : β}

theorem map_eq_ok {f : α → β} : x.map f = .ok b ↔ ∃ a, x = .ok a ∧ f a = b := by
  cases x <;> simp [Except.map]

theorem bind_eq_ok {f : α → Except ε β} : x.bind f = .ok b ↔ ∃ a, x = .ok a ∧ f a = .ok b := by
  cases x <;> simp [Except.bind]

end

variable {entries : List (Yaml × Yaml)} {found start : List (String × Value)}
  {pairs pairs' : List (String × Value)}

theorem converts_unique : Relator.RightUnique Converts :=
  fun _ _ _ h h' => Prod.ext (Option.some.inj (h.1.symm.trans h'.1))
    (Except.ok.inj (h.2.symm.trans h'.2))

theorem map_keyText?_of_converts (h : List.Forall₂ Converts entries pairs) :
    (entries.map fun entry => keyText? entry.1) = (pairs.map Prod.fst).map some := by
  induction h with
  | nil => rfl
  | cons hhead _ ih => rw [List.map_cons, List.map_cons, List.map_cons, hhead.1, ih]

theorem entryValues_foldl :
    entryValues start entries = .ok found ↔
      ∃ pairs, List.Forall₂ Converts entries pairs ∧
        found = pairs.foldl (fun found e => Entries.insert e.1 e.2 found) start := by
  induction entries generalizing start with
  | nil =>
    simp only [entryValues, Except.ok.injEq, List.forall₂_nil_left_iff, exists_eq_left,
      List.foldl_nil]
    exact eq_comm
  | cons entry rest ih =>
    obtain ⟨key, content⟩ := entry
    simp only [entryValues, List.forall₂_cons_left_iff]
    cases hkey : keyText? key with
    | none => simp [Converts, hkey]
    | some name =>
      cases hcontent : toValue .other content with
      | error cause => simp [Converts, hcontent, Except.bind]
      | ok v =>
        simp only [Except.bind, ih]
        constructor
        · rintro ⟨pairs, hpairs, rfl⟩
          exact ⟨(name, v) :: pairs, ⟨(name, v), pairs, ⟨hkey, hcontent⟩, hpairs, rfl⟩, rfl⟩
        · rintro ⟨_, ⟨pair, pairs, hhead, hpairs, rfl⟩, rfl⟩
          obtain rfl : pair = (name, v) := converts_unique hhead ⟨hkey, hcontent⟩
          exact ⟨pairs, hpairs, rfl⟩

/-- A mapping becomes an object if all its entries come to something, and the object
has these put in one after the other. -/
theorem entryValues_eq_ok_iff :
    entryValues [] entries = .ok found ↔
      ∃ pairs, List.Forall₂ Converts entries pairs ∧ found = Entries.ofList pairs :=
  entryValues_foldl

/-! ## Nothing is lost -/

mutual

/-- **Main result.** Where a YAML value becomes the value of a field, every mapping in
it becomes an object that has one entry for each of its own, under the text of the key
and with the content as a value, exactly if the keys of no mapping share a text. -/
theorem kept_iff_keysApart {kind : FieldKind} {y : Yaml} {v : Value} (h : toValue kind y = .ok v) :
    Kept y v ↔ KeysApart y := by
  cases y with
  | null | boolean | integer | float | text => simp only [Kept, KeysApart]
  | tagged tag content =>
    have hcontent : toValue kind content = .ok v := h
    have hinside : Kept content v ↔ KeysApart content := kept_iff_keysApart hcontent
    simpa only [Kept, KeysApart] using hinside
  | sequence items =>
    obtain ⟨vs, hvs, rfl⟩ := map_eq_ok.1 h
    simp only [Kept, KeysApart, Value.array.injEq, exists_eq_left']
    exact itemsKept_iff hvs
  | mapping entries =>
    obtain ⟨found, hfound, rfl⟩ := map_eq_ok.1 h
    obtain ⟨pairs, hpairs, rfl⟩ := entryValues_eq_ok_iff.1 hfound
    have hnames : (Entries.ofList pairs).Perm pairs ↔
        (entries.map fun entry => keyText? entry.1).Nodup := by
      rw [Entries.perm_ofList_iff, map_keyText?_of_converts hpairs,
        List.nodup_map_iff (Option.some_injective _)]
    simp only [Kept, KeysApart, ← hnames, ← entriesKept_iff hpairs]
    constructor
    · rintro ⟨_, pairs', hobject, hpairs', hperm, hinside⟩
      obtain rfl := Value.object.inj hobject
      obtain rfl := List.right_unique_forall₂' converts_unique hpairs hpairs'
      exact ⟨hperm, hinside⟩
    · rintro ⟨hperm, hinside⟩
      exact ⟨_, pairs, rfl, hpairs, hperm, hinside⟩

theorem itemsKept_iff {items : List Yaml} {vs : List Value} (h : itemValues items = .ok vs) :
    ItemsKept items vs ↔ ItemsKeysApart items := by
  cases items with
  | nil =>
    obtain rfl := Except.ok.inj h
    simp only [ItemsKept, ItemsKeysApart]
  | cons item rest =>
    obtain ⟨v, hv, hrest⟩ := bind_eq_ok.1 h
    obtain ⟨vs, hvs, rfl⟩ := map_eq_ok.1 hrest
    simp only [ItemsKept, ItemsKeysApart, ← kept_iff_keysApart hv, ← itemsKept_iff hvs]
    constructor
    · rintro ⟨_, _, hcons, hkept⟩
      obtain ⟨rfl, rfl⟩ := List.cons.inj hcons
      exact hkept
    · exact fun hkept => ⟨v, vs, rfl, hkept⟩

theorem entriesKept_iff {entries : List (Yaml × Yaml)} {pairs : List (String × Value)}
    (h : List.Forall₂ Converts entries pairs) :
    EntriesKept entries pairs ↔ EntriesKeysApart entries := by
  cases entries with
  | nil =>
    obtain rfl := List.forall₂_nil_left_iff.1 h
    simp only [EntriesKept, EntriesKeysApart]
  | cons entry rest =>
    obtain ⟨key, content⟩ := entry
    obtain ⟨pair, pairs, hhead, hrest, rfl⟩ := List.forall₂_cons_left_iff.1 h
    simp only [EntriesKept, EntriesKeysApart, ← kept_iff_keysApart hhead.2,
      ← entriesKept_iff hrest]
    constructor
    · rintro ⟨_, _, hcons, hkept⟩
      obtain ⟨rfl, rfl⟩ := List.cons.inj hcons
      exact hkept
    · exact fun hkept => ⟨pair, pairs, rfl, hkept⟩

end

/-- A number, a truth value and a text as keys, with a mapping inside. -/
theorem kept_mixed_keys :
    Kept (.mapping [(.text "a", .null), (.boolean true, .sequence [.mapping [(.integer 1, .text "b")]]),
        (.integer 1, .boolean false)])
      (.object [("1", .boolean false), ("a", .null),
        ("true", .array [.object [("1", .text "b")]])]) := by
  have hvalue : toValue .table (.mapping [(.text "a", .null),
        (.boolean true, .sequence [.mapping [(.integer 1, .text "b")]]), (.integer 1, .boolean false)]) =
      .ok (.object [("1", .boolean false), ("a", .null),
        ("true", .array [.object [("1", .text "b")]])]) := by
    cbv
  have hkeys : KeysApart (.mapping [(.text "a", .null),
      (.boolean true, .sequence [.mapping [(.integer 1, .text "b")]]), (.integer 1, .boolean false)]) := by
    simp only [KeysApart, ItemsKeysApart, EntriesKeysApart, List.map_cons, List.map_nil, and_true,
      true_and]
    decide
  exact (kept_iff_keysApart hvalue).2 hkeys

set_option maxRecDepth 8192 in
/-- The integer one and the text of its digit are two keys of a mapping, which loads
into an object with one entry. -/
theorem merged_keys :
    ofText? "\x7b1: 'a', '1': 'b'\x7d" = some (.mapping [(.integer 1, .text "a"), (.text "1", .text "b")]) ∧
      toValue .other (.mapping [(.integer 1, .text "a"), (.text "1", .text "b")]) =
        .ok (.object [("1", .text "b")]) ∧
      ¬ Kept (.mapping [(.integer 1, .text "a"), (.text "1", .text "b")])
        (.object [("1", .text "b")]) := by
  refine ⟨by cbv, by cbv, ?_⟩
  rintro ⟨_, pairs, hobject, hpairs, hperm, -⟩
  obtain rfl := Value.object.inj hobject
  have hlength : 1 = pairs.length := hperm.length_eq
  exact absurd (hlength.trans hpairs.length_eq.symm) (by decide)

end Yaml
end Formulary
