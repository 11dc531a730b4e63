/-
  Where the failures of a text are.

  Splitting a text into tokens fails only where a lexeme of it starts, and its tokens stand
  where theirs start.  A parser has nothing else to point at: its failures are where a token
  is that it was given, or at the end of the text.

  * `Token.LexemeAt`: where the lexemes of a text start, and which tokens they are, or why
    they are none;
  * `Token.split_tokensFrom`: what splitting reports is at lexemes;
  * `Parse.Within`: what is found at places of some kind, with all tokens that are left;
  * `Parse.Keeps`: a parser that reports only such places; below, a lemma for each parser
    that it does if its parts do;
  * `Expr.position_of_ofText`: the failures of a text that is not blank are at its end, or at
    a character of it where a token or the lexeme at fault starts.
-/
import Mathlib
import Formulary.Expr.Parser

namespace Formulary

/-! ## Lexemes -/

namespace Token

open Text (isBlank)

/-- Where the lexemes of a text start, with their first characters, and what they are read as:
one comes after the blanks in front, and the others are those of what it leaves. -/
inductive LexemeAt : List Char → Nat → Char → Except ParseCause Token → Prop where
  | first {gap : List Char} {c : Char} (rest : List Char)
      (hgap : ∀ d ∈ gap, isBlank d = true) (hc : isBlank c = false) :
      LexemeAt (gap ++ c :: rest) gap.length c ((scan c rest).map Prod.fst)
  | later {gap taken after : List Char} {c d : Char} {token : Token} {offset : Nat}
      {found : Except ParseCause Token} (hgap : ∀ d ∈ gap, isBlank d = true)
      (hc : isBlank c = false) (hscan : scan c (taken ++ after) = .ok (token, after))
      (h : LexemeAt after offset d found) :
      LexemeAt (gap ++ c :: (taken ++ after)) (gap.length + 1 + taken.length + offset) d found

/-- A lexeme starts at a character of the text, which is not blank. -/
theorem LexemeAt.getElem? {s : List Char} {offset : Nat} {c : Char}
    {found : Except ParseCause Token} (h : LexemeAt s offset c found) :
    s[offset]? = some c ∧ isBlank c = false := by
  induction h with
  | first rest hgap hc => exact ⟨by simp, hc⟩
  | @later gap taken after c d token offset found hgap hc hscan h ih =>
    have hs : gap ++ c :: (taken ++ after) = (gap ++ c :: taken) ++ after := by simp
    have hlength : gap.length + 1 + taken.length = (gap ++ c :: taken).length := by
      simp only [List.length_append, List.length_cons]
      omega
    refine ⟨?_, ih.2⟩
    rw [hs, hlength, List.getElem?_append_right (Nat.le_add_right _ _), Nat.add_sub_cancel_left]
    exact ih.1

/-- What splitting a text may report: tokens where they start in the text, or a failure at a
lexeme that is no token. -/
def Split (position : Nat) (s : List Char) : Except ParseFailure (List Located) → Prop
  | .ok ts => ∀ t ∈ ts, ∃ offset c, t.position = position + offset ∧
      LexemeAt s offset c (.ok t.token)
  | .error failure => ∃ offset c, failure.position = position + offset ∧
      LexemeAt s offset c (.error failure.cause)

/-- What is reported of the text after a token is reported of the whole text. -/
theorem Split.later {position : Nat} {gap taken after : List Char} {c : Char} {token : Token}
    (hgap : ∀ d ∈ gap, isBlank d = true) (hc : isBlank c = false)
    (hscan : scan c (taken ++ after) = .ok (token, after))
    {found : Except ParseFailure (List Located)}
    (h : Split (position + gap.length + 1 + taken.length) after found) :
    Split position (gap ++ c :: (taken ++ after))
      (found.map (⟨token, position + gap.length⟩ :: ·)) := by
  cases found with
  | error failure =>
    obtain ⟨offset, d, hposition, hlexeme⟩ := h
    exact ⟨_, d, by omega, .later hgap hc hscan hlexeme⟩
  | ok ts =>
    intro t ht
    rcases List.mem_cons.1 ht with rfl | ht
    · have hfirst := LexemeAt.first (taken ++ after) hgap hc
      rw [hscan] at hfirst
      exact ⟨_, c, rfl, hfirst⟩
    · obtain ⟨offset, d, hposition, hlexeme⟩ := h t ht
      exact ⟨_, d, by omega, .later hgap hc hscan hlexeme⟩

/-- Splitting reports only that, by induction on the length: what follows a token is shorter. -/
theorem split_tokensFrom (position : Nat) (s : List Char) :
    Split position s (tokensFrom position s) := by
  rcases Text.blank_or_gap s with hblank | ⟨gap, c, rest, hgap, hc, rfl⟩
  · have hnil := tokensFrom_gap position hblank []
    rw [List.append_nil, tokensFrom_nil] at hnil
    rw [hnil]
    exact fun t ht => absurd ht List.not_mem_nil
  · rw [tokensFrom_gap position hgap]
    cases hscan : scan c rest with
    | error cause =>
      rw [tokensFrom_stray _ hc hscan]
      have hfirst := LexemeAt.first rest hgap hc
      rw [hscan] at hfirst
      exact ⟨_, c, rfl, hfirst⟩
    | ok r =>
      obtain ⟨token, after⟩ := r
      obtain ⟨taken, rfl⟩ := scan_suffix hscan
      have htaken : (taken ++ after).length - after.length = taken.length := by
        rw [List.length_append, Nat.add_sub_cancel]
      rw [tokensFrom_cons _ hc hscan, htaken]
      exact (split_tokensFrom _ after).later hgap hc hscan
termination_by s.length
decreasing_by
  subst_vars
  simp only [List.length_append, List.length_cons]
  omega

/-- A text without tokens is blank. -/
theorem isBlank_of_tokensFrom {position : Nat} {s : List Char}
    (h : tokensFrom position s = .ok []) : ∀ c ∈ s, isBlank c = true := by
  rcases Text.blank_or_gap s with hblank | ⟨gap, c, rest, hgap, hc, rfl⟩
  · exact hblank
  · rw [tokensFrom_gap position hgap] at h
    cases hscan : scan c rest with
    | error cause =>
      rw [tokensFrom_stray _ hc hscan] at h
      cases h
    | ok r =>
      rw [tokensFrom_cons _ hc hscan] at h
      revert h
      cases tokensFrom _ r.2 <;> exact nofun

end Token

/-! ## Parsers -/

namespace Parse

variable {P : Nat → Prop} {finish : Nat} {α β : Type}

/-- Tokens that stand at such places. -/
def Placed (P : Nat → Prop) (ts : List Located) : Prop := ∀ t ∈ ts, P t.position

theorem Placed.nil : Placed P [] := fun _ h => absurd h List.not_mem_nil

theorem Placed.tail {t : Located} {ts : List Located} (h : Placed P (t :: ts)) : Placed P ts :=
  fun u hu => h u (List.mem_cons_of_mem t hu)

theorem Placed.place {ts : List Located} (h : Placed P ts) (hfinish : P finish) :
    P (place finish ts) := by
  cases ts with
  | nil => exact hfinish
  | cons t ts => exact h t List.mem_cons_self

/-- What is found at such places: the failure, or what leaves only tokens there. -/
def Within (P : Nat → Prop) (left : α → List Located) : Except ParseFailure α → Prop
  | .ok a => Placed P (left a)
  | .error failure => P failure.position

namespace Within

variable {left : α → List Located} {left' : β → List Located} {found : Except ParseFailure α}

/-- One after the other. -/
theorem bind {f : α → Except ParseFailure β} (h : Within P left found)
    (hf : ∀ a, Placed P (left a) → Within P left' (f a)) : Within P left' (found >>= f) := by
  cases found with
  | ok a => exact hf a h
  | error failure => exact h

theorem map {f : α → β} (h : Within P left found)
    (hf : ∀ a, Placed P (left a) → Placed P (left' (f a))) :
    Within P left' (found.map f) := by
  cases found with
  | ok a => exact hf a h
  | error failure => exact h

end Within

/-- What is found in front of tokens, all of them at such places. -/
abbrev FoundWithin (P : Nat → Prop) {Q : α × List Located → Prop}
    (found : Except ParseFailure { r // Q r }) : Prop :=
  Within P (fun r => r.1.2) found

/-- A parser that reports only such places, where its tokens are at such. -/
def Keeps (P : Nat → Prop) (p : Parser α) : Prop :=
  ∀ ts, Placed P ts → FoundWithin P (p ts)

/-- The parsers of what stands one level deeper report only such places. -/
structure Nested.Keeps (P : Nat → Prop) (n : Nested) : Prop where
  expression : Parse.Keeps P n.expression
  operand : Parse.Keeps P n.operand
  lambda : Parse.Keeps P n.lambda

theorem within_expect (hfinish : P finish) (token : Token) (what : Missing) {ts : List Located}
    (h : Placed P ts) : Within P Subtype.val (expect finish token what ts) := by
  unfold expect
  split
  next t rest =>
    split
    · exact h.tail
    · exact h t List.mem_cons_self
  next => exact hfinish

section

variable {p first next : Parser Expr} {n : Nested}

/-! ## Operators -/

theorem within_moreOperands (hnext : Keeps P next) (level : Nat) (left : Expr)
    {ts : List Located} (h : Placed P ts) :
    FoundWithin P (moreOperands level next left ts) := by
  rw [moreOperands.eq_def]
  cases ts with
  | nil => exact h
  | cons t rest =>
    dsimp only
    split
    · exact h
    next op hop =>
      refine (hnext rest h.tail).bind fun found hfound => ?_
      obtain ⟨⟨right, rest'⟩, hless⟩ := found
      exact (within_moreOperands hnext level _ hfound).bind fun _ h' => h'
termination_by ts.length
decreasing_by subst_vars; exact Nat.lt_succ_of_lt hless

theorem keeps_binaryLevel (level : Nat) (hnext : Keeps P next) :
    Keeps P (binaryLevel level next) :=
  fun ts h => (hnext ts h).bind fun _ hfound =>
    (within_moreOperands hnext level _ hfound).bind fun _ h' => h'

theorem keeps_operators (hp : Keeps P p) : Keeps P (operators p) := by
  unfold operators
  induction BinaryOp.levels with
  | nil => exact hp
  | cons level levels ih => exact keeps_binaryLevel level ih

/-! ## Lists -/

theorem within_moreItems (hnext : Keeps P next) {ts : List Located} (h : Placed P ts) :
    FoundWithin P (moreItems next ts) := by
  rw [moreItems.eq_def]
  split
  next position rest =>
    refine (hnext rest h.tail).bind fun found hfound => ?_
    obtain ⟨⟨item, rest'⟩, hless⟩ := found
    exact (within_moreItems hnext hfound).bind fun _ h' => h'
  next => exact h
termination_by ts.length
decreasing_by subst_vars; exact Nat.lt_succ_of_lt hless

theorem within_items (closing : Token) (hfirst : Keeps P first) (hnext : Keeps P next)
    {ts : List Located} (h : Placed P ts) :
    FoundWithin P (items closing first next ts) := by
  unfold items
  split
  · exact h
  · exact (hfirst ts h).bind fun _ hfound =>
      (within_moreItems hnext hfound).bind fun _ h' => h'

theorem keeps_listUntil (hfinish : P finish) (closing : Token) (what : Missing)
    (hfirst : Keeps P first) (hnext : Keeps P next) :
    Keeps P (listUntil finish closing what first next) :=
  fun _ h => (within_items closing hfirst hnext h).bind fun _ hfound =>
    (within_expect hfinish closing what hfound).bind fun _ h' => h'

theorem keeps_laterItem (hp : Keeps P p) : Keeps P (laterItem p) := by
  intro ts h
  unfold laterItem
  split
  next position rest => exact h _ List.mem_cons_self
  next => exact hp ts h

/-! ## Lambdas and arguments -/

theorem placed_parameterList? {ts rest : List Located} {params : List (String × Nat)}
    (h : Placed P ts) (hparams : parameterList? ts = some (params, rest)) :
    (∀ param ∈ params, P param.2) ∧ Placed P rest := by
  fun_induction parameterList? ts generalizing params rest with
  | case1 name position p rest' ih =>
    obtain ⟨⟨params', rest''⟩, hmore, heq⟩ := Option.map_eq_some_iff.1 hparams
    obtain ⟨rfl, rfl⟩ := Prod.mk.inj heq
    obtain ⟨hparams', hrest⟩ := ih h.tail.tail hmore
    exact ⟨List.forall_mem_cons.2 ⟨h _ List.mem_cons_self, hparams'⟩, hrest⟩
  | case2 name position p q rest' =>
    obtain ⟨rfl, rfl⟩ := Prod.mk.inj (Option.some.inj hparams)
    exact ⟨List.forall_mem_singleton.2 (h _ List.mem_cons_self), h.tail.tail.tail⟩
  | case3 => cases hparams

theorem placed_lambdaHead? {ts rest : List Located} {params : List (String × Nat)}
    (h : Placed P ts) (hhead : lambdaHead? ts = some (params, rest)) :
    (∀ param ∈ params, P param.2) ∧ Placed P rest := by
  unfold lambdaHead? at hhead
  split at hhead
  next name position q rest' =>
    obtain ⟨rfl, rfl⟩ := Prod.mk.inj (Option.some.inj hhead)
    exact ⟨List.forall_mem_singleton.2 (h _ List.mem_cons_self), h.tail.tail⟩
  next => exact placed_parameterList? h.tail hhead
  next => cases hhead

theorem keeps_lambda (hfinish : P finish) (hp : Keeps P p) : Keeps P (lambda finish p) := by
  intro ts h
  unfold lambda
  split
  next => exact h.place hfinish
  next params rest hhead =>
    obtain ⟨hparams, hrest⟩ := placed_lambdaHead? h hhead
    split
    next name position hfind => exact hparams _ (List.mem_of_find?_eq_some hfind)
    next =>
      split
      · exact h.place hfinish
      · exact (hp rest hrest).bind fun _ h' => h'

theorem keeps_argument (hn : Nested.Keeps P n) : Keeps P (argument n) := by
  intro ts h
  unfold argument
  split
  · exact hn.lambda ts h
  · exact hn.expression ts h

/-! ## Primaries -/

/-- A name or a path fails where its token is. -/
theorem within_path {position : Nat} (h : P position) (text : String) {rest : List Located}
    (hrest : Placed P rest) : Within P (fun _ => rest) (path position text) := by
  unfold path
  split
  · exact hrest
  · exact h

theorem within_name {position : Nat} (h : P position) (text : String) {rest : List Located}
    (hrest : Placed P rest) : Within P (fun _ => rest) (name position text) := by
  unfold name
  dsimp only
  split
  · exact hrest
  · split
    · exact hrest
    · split
      · exact hrest
      · exact within_path h text hrest

theorem keeps_call (hfinish : P finish) (name : String) {position : Nat} (h : P position)
    (hn : Nested.Keeps P n) : Keeps P (call finish n name position) := by
  intro ts hts
  unfold call
  split
  · exact h
  · exact (keeps_listUntil hfinish _ _ (keeps_argument hn) (keeps_argument hn) ts hts).bind
      fun _ h' => h'

theorem keeps_array (hfinish : P finish) (hp : Keeps P p) : Keeps P (array finish p) :=
  fun ts h => (keeps_listUntil hfinish _ _ hp (keeps_laterItem hp) ts h).bind fun _ h' => h'

theorem keeps_group (hfinish : P finish) (hp : Keeps P p) : Keeps P (group finish p) :=
  fun ts h => (hp ts h).bind fun _ hfound =>
    (within_expect hfinish _ _ hfound).bind fun _ h' => h'

theorem Within.after {t : Located} {rest : List Located} {found : Found Expr rest}
    (h : FoundWithin P found) : FoundWithin P (after t found) :=
  h.map fun _ h' => h'

theorem Within.only {t : Located} {rest : List Located} {found : Except ParseFailure Expr}
    (h : Within P (fun _ => rest) found) : FoundWithin P (only t rest found) :=
  h.map fun _ h' => h'

theorem keeps_primary (hfinish : P finish) (hn : Nested.Keeps P n) :
    Keeps P (primary finish n) := by
  intro ts h
  cases ts with
  | nil => exact hfinish
  | cons t rest =>
    have ht := h t List.mem_cons_self
    have hliteral (v : Value) : Within P (fun _ => rest) (.ok (Expr.literal v)) := h.tail
    unfold primary
    dsimp only
    split
    next x _ => exact (hliteral (.number x)).only
    next s _ => exact (hliteral (.text s)).only
    next text _ => exact (within_path ht text h.tail).only
    next text _ =>
      split
      next position rest' =>
        exact (keeps_call hfinish text ht hn rest' h.tail.tail).after.after
      next => exact (within_name ht text h.tail).only
    next => exact (keeps_array hfinish hn.expression rest h.tail).after
    next => exact (keeps_group hfinish hn.expression rest h.tail).after
    next => exact ht

/-! ## Operands -/

theorem within_moreIndices (hfinish : P finish) (hp : Keeps P p) (target : Expr)
    {ts : List Located} (h : Placed P ts) :
    FoundWithin P (moreIndices finish p target ts) := by
  rw [moreIndices.eq_def]
  split
  next position rest =>
    refine (hp rest h.tail).bind fun found hfound => ?_
    obtain ⟨⟨index, rest'⟩, hless⟩ := found
    refine (within_expect hfinish _ _ hfound).bind fun closed hclosed => ?_
    obtain ⟨rest'', hless'⟩ := closed
    exact (within_moreIndices hfinish hp _ hclosed).bind fun _ h' => h'
  next => exact h
termination_by ts.length
decreasing_by subst_vars; exact Nat.lt_succ_of_lt (Nat.lt_trans hless' hless)

theorem keeps_element (hfinish : P finish) (hn : Nested.Keeps P n) :
    Keeps P (element finish n) :=
  fun ts h => (keeps_primary hfinish hn ts h).bind fun _ hfound =>
    (within_moreIndices hfinish hn.expression _ hfound).bind fun _ h' => h'

theorem keeps_operand (hfinish : P finish) (hn : Nested.Keeps P n) :
    Keeps P (operand finish n) := by
  intro ts h
  cases ts with
  | nil => exact keeps_element hfinish hn [] h
  | cons t rest =>
    unfold operand
    dsimp only
    split
    · exact Within.after ((hn.operand rest h.tail).map fun _ h' => h')
    · exact keeps_element hfinish hn (t :: rest) h

end

/-! ## Nesting -/

/-- Below every limit the parsers report only the places of their tokens and the end. -/
theorem keeps_nested (hfinish : P finish) (limit room : Nat) :
    Nested.Keeps P (nested limit finish room) := by
  induction room with
  | zero =>
    have hdeep : Keeps P (atLimit limit finish) := fun _ h => h.place hfinish
    exact ⟨hdeep, hdeep, hdeep⟩
  | succ room ih =>
    have hoperand := keeps_operand hfinish ih
    exact ⟨keeps_operators hoperand, hoperand, keeps_lambda hfinish ih.expression⟩

end Parse

namespace Expr

open Parse

/-- The failures of tokens are where one of them is, or at the end. -/
theorem position_of_ofTokens {limit finish : Nat} {ts : List Located} (hts : ts ≠ [])
    {failure : ParseFailure} (h : ofTokens limit finish ts = .error failure) :
    failure.position = finish ∨ ∃ t ∈ ts, t.position = failure.position := by
  -- the places of all tokens and the end; the parsers take tokens, and make no places
  let P (place : Nat) : Prop := place = finish ∨ ∃ t ∈ ts, t.position = place
  have hplaced : Placed P ts := fun t ht => .inr ⟨t, ht, rfl⟩
  have hwithin : Within P (fun _ => []) (ofTokens limit finish ts) := by
    unfold ofTokens
    rw [List.isEmpty_eq_false_iff.2 hts]
    refine ((keeps_nested (.inl rfl) limit limit).expression ts hplaced).bind fun found h => ?_
    dsimp only
    split
    next => exact .nil
    next t rest hrest => exact h t (hrest ▸ List.mem_cons_self)
  rw [h] at hwithin
  exact hwithin

/-- **Main result.** Where a text that is not blank denotes no expression, that is reported at
its end or at a character of it that is not blank: where one of its tokens starts, or where the
lexeme starts that is no token. -/
theorem position_of_ofText {limit : Nat} {text : String} {failure : ParseFailure}
    (hchar : ∃ c ∈ text.toList, Text.isBlank c = false)
    (h : ofText limit text = .error failure) :
    failure.toFault = .parse failure.position failure.cause.message ∧
      (failure.position = text.length ∨
        ∃ c, text.toList[failure.position]? = some c ∧ Text.isBlank c = false ∧
          ((∃ ts, tokenize text = .ok ts ∧ ∃ t ∈ ts, t.position = failure.position ∧
              Token.LexemeAt text.toList failure.position c (.ok t.token)) ∨
            tokenize text = .error failure ∧
              Token.LexemeAt text.toList failure.position c (.error failure.cause))) := by
  refine ⟨rfl, ?_⟩
  have hsplit : Token.Split 0 text.toList (tokenize text) := Token.split_tokensFrom 0 text.toList
  unfold ofText at h
  cases htokens : tokenize text with
  | error failure' =>
    rw [htokens] at h hsplit
    cases h
    obtain ⟨offset, c, hposition, hlexeme⟩ := hsplit
    rw [Nat.zero_add] at hposition
    subst hposition
    obtain ⟨hget, hc⟩ := hlexeme.getElem?
    exact .inr ⟨c, hget, hc, .inr ⟨rfl, hlexeme⟩⟩
  | ok ts =>
    have hts : ts ≠ [] := by
      rintro rfl
      obtain ⟨c, hmem, hc⟩ := hchar
      have hblank := Token.isBlank_of_tokensFrom htokens c hmem
      rw [hblank] at hc
      cases hc
    rw [htokens] at h hsplit
    rcases position_of_ofTokens hts h with hend | ⟨t, ht, hposition⟩
    · exact .inl hend
    · obtain ⟨offset, c, hoffset, hlexeme⟩ := hsplit t ht
      rw [Nat.zero_add, hposition] at hoffset
      subst hoffset
      obtain ⟨hget, hc⟩ := hlexeme.getElem?
      exact .inr ⟨c, hget, hc, .inl ⟨ts, rfl, t, ht, hposition, hlexeme⟩⟩

/-- A parenthesis after a wide blank, a name and a space: its place is counted in characters. -/
theorem position_of_ofText_wide :
    (∃ c ∈ "\u2003a )".toList, Text.isBlank c = false) ∧
      ofText 4 "\u2003a )" = .error ⟨3, .tokenAfterEnd .closeParen⟩ ∧
      (3 = "\u2003a )".length ∨
        ∃ c, "\u2003a )".toList[3]? = some c ∧ Text.isBlank c = false ∧
          ((∃ ts, tokenize "\u2003a )" = .ok ts ∧ ∃ t ∈ ts, t.position = 3 ∧
              Token.LexemeAt "\u2003a )".toList 3 c (.ok t.token)) ∨
            tokenize "\u2003a )" = .error ⟨3, .tokenAfterEnd .closeParen⟩ ∧
              Token.LexemeAt "\u2003a )".toList 3 c
                (.error (.tokenAfterEnd .closeParen)))) := by
  have hchar : ∃ c ∈ "\u2003a )".toList, Text.isBlank c = false :=
    ⟨')', by decide, by decide⟩
  have hfail : ofText 4 "\u2003a )" = .error ⟨3, .tokenAfterEnd .closeParen⟩ := by cbv
  exact ⟨hchar, hfail, (position_of_ofText hchar hfail).2⟩

end Expr

end Formulary
