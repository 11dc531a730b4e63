/-
  What the parsers find, the grammar derives.

  * `Parse.Takes`: what a parser finds is derived from the tokens that it took;
  * `Parse.takes_nested`: so it is with the parsers below every limit of nesting, and the
    derivation keeps to the limit;
  * `Expr.derives_of_ofTokens`, `Expr.derives_of_ofText`: the tree of a formula is derived
    from its tokens.
-/
import Formulary.Proofs.Parsing

namespace Formulary

theorem intercalate_comma (ts : List Token) (rest : List (List Token)) :
    [Token.comma].intercalate (ts :: rest) = ts ++ rest.flatMap (Token.comma :: ·) := by
  induction rest generalizing ts with
  | nil => simp
  | cons ts' rest ih => simp [List.intercalate_cons_cons, ih]

namespace Parse

/-- What a parser finds is derived from the tokens that it took. -/
def Takes (n : Nat) (phrase : Phrase) (p : Parser Expr) : Prop :=
  ∀ ts r, Is (p ts) r →
    ∃ front, ts = front ++ r.2 ∧ Derives n phrase (front.map Located.token) r.1

variable {n finish : Nat} {phrase : Phrase} {p : Parser Expr}

/-! ## Operators -/

theorem takes_moreOperands {level : Nat} (hp : Takes n (.level (level + 1)) p)
    {front : List Located} {left : Expr}
    (hleft : Derives n (.level level) (front.map Located.token) left) {ts : List Located}
    {r : Expr × List Located} (h : Is (moreOperands level p left ts) r) :
    ∃ more, ts = more ++ r.2 ∧
      Derives n (.level level) ((front ++ more).map Located.token) r.1 := by
  have hdone (hnext : ∀ t ∈ ts.head?, operatorAt? level t.token = none) :
      ∃ more, ts = more ++ r.2 ∧
        Derives n (.level level) ((front ++ more).map Located.token) r.1 := by
    obtain rfl := (is_moreOperands_done hnext).1 h
    exact ⟨[], rfl, by rwa [List.append_nil]⟩
  match ts with
  | [] => exact hdone nofun
  | t :: rest =>
    cases hop : operatorAt? level t.token with
    | none => exact hdone fun u hu => Option.some.inj hu ▸ hop
    | some op =>
      obtain ⟨⟨right, rest'⟩, hright, hmore⟩ := (is_moreOperands_cons hop).1 h
      obtain ⟨sign, ht, hsign⟩ := operatorAt?_eq_some.1 hop
      have hshorter : rest'.length < rest.length := hright.1
      obtain ⟨operand, rfl, hoperand⟩ := hp _ _ hright
      have hboth : Derives n (.level level) ((front ++ t :: operand).map Located.token)
          (.binary op left right) := by
        rw [List.map_append, List.map_cons, ht]
        exact .binary hsign hleft hoperand
      obtain ⟨more, rfl, hderives⟩ := takes_moreOperands hp hboth hmore
      exact ⟨t :: (operand ++ more), by simp, by simpa using hderives⟩
termination_by ts.length
decreasing_by simp only [List.length_cons] at *; omega

theorem takes_binaryLevel {level : Nat} (hp : Takes n (.level (level + 1)) p) :
    Takes n (.level level) (binaryLevel level p) := by
  intro ts r h
  obtain ⟨⟨left, rest⟩, hleft, hmore⟩ := is_binaryLevel.1 h
  obtain ⟨front, rfl, hfront⟩ := hp _ _ hleft
  obtain ⟨more, rfl, hderives⟩ := takes_moreOperands hp (.tighter hfront) hmore
  exact ⟨front ++ more, (List.append_assoc ..).symm, hderives⟩

theorem takes_operators (hp : Takes n .operand p) : Takes n (.level 0) (operators p) := by
  have hoperand : Takes n (.level 6) p := fun ts r h =>
    (hp ts r h).imp fun _ h => ⟨h.1, .operand h.2⟩
  exact takes_binaryLevel (takes_binaryLevel (takes_binaryLevel (takes_binaryLevel
    (takes_binaryLevel (takes_binaryLevel hoperand)))))

/-! ## Lists -/

section

variable {first next : Parser Expr}

theorem takes_moreItems (hnext : Takes n phrase next) {ts : List Located}
    {rs : List Expr × List Located} (h : Is (moreItems next ts) rs) :
    ∃ items : List (List Token × Expr), (∀ item ∈ items, Derives n phrase item.1 item.2) ∧
      items.map Prod.snd = rs.1 ∧ ∃ front, ts = front ++ rs.2 ∧
        front.map Located.token = (items.map Prod.fst).flatMap (Token.comma :: ·) := by
  have hdone (hcomma : ∀ t ∈ ts.head?, t.token ≠ .comma) : rs = ([], ts) :=
    ((is_moreItems_done hcomma).1 h).symm
  match ts with
  | [] =>
    obtain rfl := hdone nofun
    exact ⟨[], by simp, rfl, [], rfl, rfl⟩
  | t :: rest =>
    by_cases ht : t.token = .comma
    · obtain ⟨⟨item, rest'⟩, hitem, ⟨_, after⟩, hitems, rfl⟩ := (is_moreItems_cons ht).1 h
      have hshorter : rest'.length < rest.length := hitem.1
      obtain ⟨front, rfl, hfront⟩ := hnext _ _ hitem
      obtain ⟨items, hall, rfl, more, rfl, hmore⟩ := takes_moreItems hnext hitems
      refine ⟨(front.map Located.token, item) :: items, ?_, rfl, t :: (front ++ more), by simp, ?_⟩
      · exact List.forall_mem_cons.2 ⟨hfront, hall⟩
      · simp [ht, hmore]
    · obtain rfl := hdone fun u hu => Option.some.inj hu ▸ ht
      exact ⟨[], by simp, rfl, [], rfl, rfl⟩
termination_by ts.length
decreasing_by simp only [List.length_cons] at *; omega

theorem takes_listUntil (hfirst : Takes n phrase first) (hnext : Takes n phrase next)
    {closing : Token} {what : Missing} {ts : List Located} {rs : List Expr × List Located}
    (h : Is (listUntil finish closing what first next ts) rs) :
    ∃ items : List (List Token × Expr), (∀ item ∈ items, Derives n phrase item.1 item.2) ∧
      items.map Prod.snd = rs.1 ∧ ∃ front, ts = front ++ rs.2 ∧
        front.map Located.token = [.comma].intercalate (items.map Prod.fst) ++ [closing] := by
  obtain ⟨rs, rest⟩ := rs
  obtain ⟨⟨found, after⟩, hitems, t, ht, hfound, hafter⟩ := is_listUntil.1 h
  obtain rfl : found = rs := hfound
  obtain rfl : after = t :: rest := hafter
  rw [is_items] at hitems
  split at hitems
  · obtain ⟨rfl, rfl⟩ := Prod.mk.inj hitems
    exact ⟨[], by simp, rfl, [t], rfl, by simp [ht]⟩
  · obtain ⟨⟨item, middle⟩, hitem, ⟨_, _⟩, hmore, heq⟩ := hitems
    obtain ⟨rfl, rfl⟩ := Prod.mk.inj heq
    obtain ⟨front, rfl, hfront⟩ := hfirst _ _ hitem
    obtain ⟨items, hall, rfl, more, rfl, htokens⟩ := takes_moreItems hnext hmore
    refine ⟨(front.map Located.token, item) :: items, ?_, rfl, front ++ more ++ [t], by simp, ?_⟩
    · exact List.forall_mem_cons.2 ⟨hfront, hall⟩
    · rw [List.map_cons, intercalate_comma, List.map_append, List.map_append, htokens]
      simp [ht]

end

/-! ## Lambdas and arguments -/

theorem parameterList?_tokens {ts rest : List Located} {params : List (String × Nat)}
    (h : parameterList? ts = some (params, rest)) : params ≠ [] ∧ ∃ front, ts = front ++ rest ∧
      front.map Located.token = ((params.map Prod.fst).map Token.identifier).intersperse .comma ++
        [.closeParen, .arrow] := by
  fun_induction parameterList? ts generalizing params rest with
  | case1 name position p rest' ih =>
    obtain ⟨⟨params', rest''⟩, hr, heq⟩ := Option.map_eq_some_iff.1 h
    obtain ⟨rfl, rfl⟩ := Prod.mk.inj heq
    obtain ⟨hne, front, rfl, hfront⟩ := ih hr
    refine ⟨List.cons_ne_nil _ _, ⟨.identifier name, position⟩ :: ⟨.comma, p⟩ :: front, rfl, ?_⟩
    cases params' with
    | nil => exact absurd rfl hne
    | cons param params' => simp [hfront]
  | case2 name position p p' rest' =>
    obtain ⟨rfl, rfl⟩ := Prod.mk.inj (Option.some.inj h)
    exact ⟨List.cons_ne_nil _ _, [⟨.identifier name, position⟩, ⟨.closeParen, p⟩, ⟨.arrow, p'⟩],
      rfl, rfl⟩
  | case3 => simp at h

theorem takes_lambda (hp : Takes n (.level 0) p) : Takes (n + 1) .argument (lambda finish p) := by
  intro ts r h
  obtain ⟨params, rest, hhead, hundotted, hfew, ⟨body, _⟩, hbody, rfl⟩ := is_lambda.1 h
  obtain ⟨inner, rfl, hinner⟩ := hp _ _ hbody
  unfold lambdaHead? at hhead
  split at hhead
  next name position p rest' =>
    obtain ⟨rfl, rfl⟩ := Prod.mk.inj (Option.some.inj hhead)
    refine ⟨⟨.identifier name, position⟩ :: ⟨.arrow, p⟩ :: inner, rfl, ?_⟩
    exact .lambda (hundotted _ (List.mem_singleton_self _)) hinner
  next position rest' =>
    obtain ⟨hne, front, rfl, hfront⟩ := parameterList?_tokens hhead
    refine ⟨⟨.openParen, position⟩ :: (front ++ inner), by simp, ?_⟩
    have hnames : ∀ name ∈ params.map Prod.fst, '.' ∉ name.toList := by
      simpa using fun name position hmem => hundotted (name, position) hmem
    have hderives := Derives.lambdas (by simpa using hne) (by simpa using hfew) hnames hinner
    simpa [hfront] using hderives
  next => simp at hhead

theorem takes_argument {nested : Nested} (hexpression : Takes n (.level 0) nested.expression)
    (hlambda : Takes n .argument nested.lambda) : Takes n .argument (argument nested) := by
  intro ts r h
  rw [is_argument] at h
  split at h
  · exact hlambda ts r h
  · exact (hexpression ts r h).imp fun _ h => ⟨h.1, .expression h.2⟩

/-! ## Operands -/

section

variable {nested : Nested}

theorem takes_primary (hexpression : Takes n (.level 0) nested.expression)
    (hargument : Takes n .argument (argument nested)) :
    Takes (n + 1) .primary (primary finish nested) := by
  intro ts r h
  cases ts with
  | nil => exact (is_fail.1 h).elim
  | cons t rest =>
    rw [is_primary] at h
    obtain ⟨token, position⟩ := t
    cases token with
    | number x =>
      obtain rfl := h
      exact ⟨[_], rfl, .number n x⟩
    | text s =>
      obtain rfl := h
      exact ⟨[_], rfl, .text n s⟩
    | reference text =>
      obtain ⟨hpath, rfl⟩ := h
      obtain ⟨path, hpath, he⟩ := path_eq_ok.1 hpath
      exact ⟨[_], rfl, he ▸ .reference n hpath⟩
    | identifier text =>
      dsimp only at h
      split at h
      next hnext =>
        obtain ⟨⟨_, p⟩, rest, rfl, rfl⟩ := isNext_iff.1 hnext
        obtain ⟨hname, ⟨_, _⟩, hlist, rfl⟩ := is_call.1 h
        obtain ⟨args, hall, rfl, front, rfl, hfront⟩ := takes_listUntil hargument hargument hlist
        refine ⟨⟨.identifier text, position⟩ :: ⟨.openParen, p⟩ :: front, rfl, ?_⟩
        rw [List.map_cons, List.map_cons, hfront]
        exact .call hname hall
      next =>
        obtain ⟨hname, rfl⟩ := h
        rw [name_eq_ok] at hname
        split at hname
        next v hv => exact ⟨[_], rfl, hname ▸ .constant n hv⟩
        next hv =>
          obtain ⟨path, hpath, he⟩ := hname
          exact ⟨[_], rfl, he ▸ .name n hv hpath⟩
    | openBracket =>
      obtain ⟨⟨_, _⟩, hlist, rfl⟩ := is_array.1 h
      have hlater : Takes n (.level 0) (laterItem nested.expression) :=
        fun ts r h => hexpression ts r (is_laterItem.1 h).2
      obtain ⟨items, hall, rfl, front, rfl, hfront⟩ := takes_listUntil hexpression hlater hlist
      refine ⟨⟨.openBracket, position⟩ :: front, rfl, ?_⟩
      rw [List.map_cons, hfront]
      exact .array hall
    | openParen =>
      obtain ⟨t, ht, hinner⟩ := is_group.1 h
      obtain ⟨front, heq, hfront⟩ := hexpression _ _ hinner
      refine ⟨⟨.openParen, position⟩ :: (front ++ [t]), by simp [heq], ?_⟩
      rw [List.map_cons, List.map_append, List.map_singleton, ht]
      exact .group hfront
    | operator _ => exact h.elim
    | closeParen => exact h.elim
    | closeBracket => exact h.elim
    | comma => exact h.elim
    | arrow => exact h.elim

theorem takes_moreIndices (hexpression : Takes n (.level 0) p) {front : List Located}
    {target : Expr} (htarget : Derives (n + 1) .element (front.map Located.token) target)
    {ts : List Located} {r : Expr × List Located}
    (h : Is (moreIndices finish p target ts) r) :
    ∃ more, ts = more ++ r.2 ∧
      Derives (n + 1) .element ((front ++ more).map Located.token) r.1 := by
  have hdone (hnext : ∀ t ∈ ts.head?, t.token ≠ .openBracket) :
      ∃ more, ts = more ++ r.2 ∧
        Derives (n + 1) .element ((front ++ more).map Located.token) r.1 := by
    obtain rfl := (is_moreIndices_done hnext).1 h
    exact ⟨[], rfl, by rwa [List.append_nil]⟩
  match ts with
  | [] => exact hdone nofun
  | t :: rest =>
    by_cases ht : t.token = .openBracket
    · obtain ⟨index, t', rest', hindex, ht', hmore⟩ := (is_moreIndices_cons ht).1 h
      have hshorter : (t' :: rest').length < rest.length := hindex.1
      obtain ⟨inner, heq, hinner⟩ := hexpression _ _ hindex
      obtain rfl : rest = inner ++ t' :: rest' := heq
      have hboth : Derives (n + 1) .element
          ((front ++ t :: (inner ++ [t'])).map Located.token) (.index target index) := by
        simpa [ht, ht'] using Derives.index htarget hinner
      obtain ⟨more, rfl, hderives⟩ := takes_moreIndices hexpression hboth hmore
      exact ⟨t :: (inner ++ [t'] ++ more), by simp, by simpa using hderives⟩
    · exact hdone fun u hu => Option.some.inj hu ▸ ht
termination_by ts.length
decreasing_by simp only [List.length_cons] at *; omega

theorem takes_operand (hexpression : Takes n (.level 0) nested.expression)
    (hoperand : Takes n .operand nested.operand)
    (hargument : Takes n .argument (argument nested)) :
    Takes (n + 1) .operand (operand finish nested) := by
  have helement : Takes (n + 1) .element (element finish nested) := by
    intro ts r h
    obtain ⟨⟨target, rest⟩, htarget, hmore⟩ := is_element.1 h
    obtain ⟨front, rfl, hfront⟩ := takes_primary hexpression hargument _ _ htarget
    obtain ⟨more, rfl, hderives⟩ := takes_moreIndices hexpression (.primary hfront) hmore
    exact ⟨front ++ more, (List.append_assoc ..).symm, hderives⟩
  intro ts r h
  have hplain (hnext : ∀ t ∈ ts.head?, unaryAt? t.token = none) :
      ∃ front, ts = front ++ r.2 ∧ Derives (n + 1) .operand (front.map Located.token) r.1 :=
    (helement ts r ((is_operand_element hnext).1 h)).imp fun _ h => ⟨h.1, .element h.2⟩
  match ts with
  | [] => exact hplain nofun
  | t :: rest =>
    cases hop : unaryAt? t.token with
    | none => exact hplain fun u hu => Option.some.inj hu ▸ hop
    | some op =>
      obtain ⟨⟨e, _⟩, he, rfl⟩ := (is_operand_unary hop).1 h
      obtain ⟨sign, ht, hsign⟩ := unaryAt?_eq_some.1 hop
      obtain ⟨front, rfl, hfront⟩ := hoperand _ _ he
      refine ⟨t :: front, rfl, ?_⟩
      rw [List.map_cons, ht]
      exact .unary hsign hfront

end

/-! ## Limits -/

/-- With room for so many levels of nesting, no derivation has more of them. -/
theorem takes_nested (limit finish room : Nat) :
    Takes room (.level 0) (nested limit finish room).expression ∧
      Takes room .operand (nested limit finish room).operand ∧
      Takes room .argument (nested limit finish room).lambda := by
  induction room with
  | zero => exact ⟨fun _ _ h => h.elim nofun, fun _ _ h => h.elim nofun, fun _ _ h => h.elim nofun⟩
  | succ room ih =>
    obtain ⟨hexpression, hoperand, hlambda⟩ := ih
    have hinner : Takes (room + 1) .operand (operand finish (nested limit finish room)) :=
      takes_operand hexpression hoperand (takes_argument hexpression hlambda)
    exact ⟨takes_operators hinner, hinner, takes_lambda hexpression⟩

end Parse

/-! ## Formulas -/

namespace Expr

/-- The tree that tokens denote below a limit of nesting is derived with so many levels. -/
theorem derives_of_ofTokens {limit finish : Nat} {ts : List Located} {e : Expr}
    (h : ofTokens limit finish ts = .ok e) :
    Derives limit (.level 0) (ts.map Located.token) e := by
  unfold ofTokens at h
  split at h
  · cases h
  · cases hfound : (Parse.nested limit finish limit).expression ts with
    | error failure =>
      rw [hfound] at h
      cases h
    | ok found =>
      obtain ⟨⟨e', rest⟩, hlt⟩ := found
      rw [hfound] at h
      obtain ⟨front, rfl, hfront⟩ :=
        (Parse.takes_nested limit finish limit).1 ts (e', rest) ⟨hlt, hfound⟩
      cases rest with
      | nil =>
        obtain rfl := Except.ok.inj h
        simpa using hfront
      | cons t rest => cases h

/-- So it is with the tree of a text. -/
theorem derives_of_ofText {limit : Nat} {text : String} {e : Expr}
    (h : ofText limit text = .ok e) : ∃ ts, Derives limit (.level 0) ts e := by
  unfold ofText at h
  cases htokens : tokenize text with
  | error failure =>
    rw [htokens] at h
    cases h
  | ok ts =>
    rw [htokens] at h
    exact ⟨_, derives_of_ofTokens h⟩

end Expr
end Formulary
