import EventQuery.Proofs.Grammar.Unfolding

set_option autoImplicit false

namespace EventQuery

theorem Cursor.passes_cons_iff (c e : Cursor) (t : Located Token) (rest : List (Located Token)) :
    c.Passes (t :: rest) e ↔ ∃ d, c.Passes [t] d ∧ d.Passes rest e :=
  passes_append c e [t] rest

theorem Cursor.Passes.next {c d : Cursor} {t : Located Token} (passes : c.Passes [t] d) :
    c.current = t ∧ c.next? = some d := by
  obtain ⟨here, next, stepped, rfl⟩ := passes
  exact ⟨here, stepped⟩

namespace Parser

variable {α ω : Type} {c d e : Cursor} {a b : α}

theorem peek_run : peek c = .ok (c.current.value, c) := rfl

theorem advance_of_passes {t : Located Token} (passes : c.Passes [t] d) :
    advance c = .ok (t, d) := by
  obtain ⟨rfl, stepped⟩ := passes.next
  exact advance_of_next stepped

theorem expect_of_passes {accepted : Token → Bool} {expected : Expectation} {t : Located Token}
    (fits : accepted t.value = true) (passes : c.Passes [t] d) :
    expect accepted expected c = .ok (t, d) := by
  obtain ⟨rfl, stepped⟩ := passes.next
  exact expect_of_accepted fits stepped

theorem expectToken_of_passes {token : Token} {span : Span} {expected : Expectation}
    (passes : c.Passes [⟨token, span⟩] d) :
    expectToken token expected c = .ok (⟨token, span⟩, d) :=
  expect_of_passes (by simp) passes

theorem expectWord_of_passes {name : Located String} {expected : Expectation}
    (passes : c.Passes [name.token .word] d) :
    expectWord expected c = .ok (name.token .word, d) :=
  expect_of_passes rfl passes

theorem expectComparison_of_passes {op : Located Comparison}
    (passes : c.Passes [op.token .comparison] d) :
    expectComparison c = .ok (op.token .comparison, d) :=
  expect_of_passes rfl passes

section Chain

variable {operator : Token → Option ω} {combine : ω → α → α → α} {budget : Nat} {head : Parser α}
  {rest : Nat → Parser α}

theorem chain_of_last (first : head c = .ok (a, e)) (ended : operator e.current.value = none) :
    chain operator combine budget head rest c = .ok (a, e) := by
  rw [chain, bind_of_ok first, bind_of_ok peek_run, ended]
  rfl

theorem chain_of_more {t : Located Token} {f : Cursor} {op : ω}
    (first : head c = .ok (a, d)) (known : operator t.value = some op) (passes : d.Passes [t] e)
    (last : rest budget e = .ok (b, f)) :
    chain operator combine (budget + 1) head rest c = .ok (combine op a b, f) := by
  obtain ⟨rfl, -⟩ := passes.next
  rw [chain, bind_of_ok first, bind_of_ok peek_run, known]
  show (advance >>= fun _ => rest budget >>= fun last => pure (combine op a last)) d = _
  rw [bind_of_ok (advance_of_passes passes), bind_of_ok last]
  rfl

theorem enclosed_of_passes {inner : Nat → Parser α} {opening closing : Span}
    {tokens : List (Located Token)} (passes : c.Passes (Derivation.enclose opening tokens closing) e)
    (inside : ∀ {c d}, c.Passes tokens d → d.current.value = .rightParen →
      inner budget c = .ok (a, d)) :
    enclosed (budget + 1) inner c = .ok (a, e) := by
  obtain ⟨start, first, later⟩ := (Cursor.passes_cons_iff ..).mp passes
  obtain ⟨stop, middle, last⟩ := (Cursor.passes_append ..).mp later
  have closes : stop.current.value = .rightParen := congrArg Located.value last.next.1
  show (advance >>= fun _ => inner budget >>= fun x =>
    expectToken .rightParen .closing >>= fun _ => pure x) c = _
  rw [bind_of_ok (advance_of_passes first), bind_of_ok (inside middle closes),
    bind_of_ok (expectToken_of_passes last)]
  rfl

end Chain

end Parser

namespace Arithmetic

open EventQuery.Parser EventQuery.Derivation

variable {c d e : Cursor}

theorem signed_of_passes {operand : Parser Float} {sign : Option Span}
    {tokens : List (Located Token)} {x : Float}
    (starts : ∃ t rest, tokens = t :: rest ∧
      (t.value = .leftParen ∨ ∃ lexeme, t.value = .number lexeme))
    (passes : c.Passes (optionalToken .minus sign ++ tokens) e)
    (reads : ∀ {c}, c.Passes tokens e → operand c = .ok (x, e)) :
    signed true operand c = .ok (withSign sign x, e) := by
  cases sign with
  | none =>
    obtain ⟨t, rest, rfl, begins⟩ := starts
    have here : c.current = t := passes.1
    have unsigned : c.current.value ≠ .minus := by
      rw [here]
      rintro same
      rcases begins with opening | ⟨lexeme, number⟩ <;> simp_all
    rw [signed, bind_of_ok peek_run, if_neg (by simp [unsigned])]
    exact reads passes
  | some span =>
    obtain ⟨d, first, later⟩ := (Cursor.passes_cons_iff ..).mp passes
    have minus : c.current.value = .minus := congrArg Located.value first.next.1
    rw [signed, bind_of_ok peek_run, if_pos (by simp [minus]), bind_of_ok (advance_of_passes first),
      bind_of_ok (reads later)]
    rfl

mutual

theorem primary_of_passes (p : Primary) {budget : Nat} {c e : Cursor} (fits : p.need ≤ budget)
    (passes : c.Passes p.tokens e) : primary budget c = .ok (p.value, e) := by
  cases p with
  | number numeral =>
    have here : c.current.value = .number numeral.lexeme.value :=
      congrArg Located.value passes.next.1
    rw [primary_eq, bind_of_ok peek_run, here]
    show number numeral.lexeme.value c = _
    rw [number, numeral.reads]
    exact bind_of_ok (advance_of_passes passes) _
  | parens opening inside closing =>
    have here : c.current.value = .leftParen := congrArg Located.value passes.1
    rw [primary_eq, bind_of_ok peek_run, here]
    rw [Primary.need] at fits
    obtain ⟨k, rfl⟩ : ∃ k, budget = k + 1 := ⟨budget - 1, by omega⟩
    apply enclosed_of_passes passes
    intro _ _ within closes
    exact sum_of_passes inside (by omega) within (by rw [closes]; exact ⟨rfl, rfl⟩)

theorem factors_of_passes (f : Factors) {budget : Nat} {c e : Cursor} (fits : f.need ≤ budget)
    (passes : c.Passes f.tokens e) (ends : multiplicative? e.current.value = none) :
    factors budget c = .ok (f.value, e) := by
  cases f with
  | last sign only =>
    rw [factors_eq]
    refine chain_of_last (signed_of_passes only.tokens_eq_cons passes fun reached => ?_) ends
    exact primary_of_passes only fits reached
  | more sign first op rest =>
    rw [Factors.need] at fits
    obtain ⟨k, rfl⟩ : ∃ k, budget = k + 1 := ⟨budget - 1, by omega⟩
    obtain ⟨d, front, later⟩ := (Cursor.passes_append ..).mp passes
    obtain ⟨d', operator, back⟩ := (Cursor.passes_cons_iff ..).mp later
    rw [factors_eq]
    refine chain_of_more (signed_of_passes first.tokens_eq_cons front fun reached => ?_) op.known
      operator (factors_of_passes rest (by omega) back ends)
    exact primary_of_passes first (by omega) reached

theorem product_of_passes (p : Product) {budget : Nat} {c e : Cursor} (fits : p.need ≤ budget)
    (passes : c.Passes p.tokens e) (ends : multiplicative? e.current.value = none) :
    product budget c = .ok (p.value, e) := by
  cases p with
  | last only =>
    rw [product_eq]
    exact chain_of_last (primary_of_passes only fits passes) ends
  | more first op rest =>
    rw [Product.need] at fits
    obtain ⟨k, rfl⟩ : ∃ k, budget = k + 1 := ⟨budget - 1, by omega⟩
    obtain ⟨d, front, later⟩ := (Cursor.passes_append ..).mp passes
    obtain ⟨d', operator, back⟩ := (Cursor.passes_cons_iff ..).mp later
    rw [product_eq]
    exact chain_of_more (primary_of_passes first (by omega) front) op.known operator
      (factors_of_passes rest (by omega) back ends)

theorem sum_of_passes (s : Sum) {budget : Nat} {c e : Cursor} (fits : s.need ≤ budget)
    (passes : c.Passes s.tokens e) (ends : EndsSum e.current.value) :
    sum budget c = .ok (s.value, e) := by
  cases s with
  | last sign only =>
    rw [sum_eq]
    refine chain_of_last (signed_of_passes only.tokens_eq_cons passes fun reached => ?_) ends.1
    exact product_of_passes only fits reached ends.2
  | more sign first op rest =>
    rw [Sum.need] at fits
    obtain ⟨k, rfl⟩ : ∃ k, budget = k + 1 := ⟨budget - 1, by omega⟩
    obtain ⟨d, front, later⟩ := (Cursor.passes_append ..).mp passes
    obtain ⟨d', operator, back⟩ := (Cursor.passes_cons_iff ..).mp later
    have endsFirst : multiplicative? d.current.value = none := by
      rw [operator.next.1]
      exact multiplicative?_of_additive? op.known
    rw [sum_eq]
    refine chain_of_more (signed_of_passes first.tokens_eq_cons front fun reached => ?_) op.known
      operator (sum_of_passes rest (by omega) back ends)
    exact product_of_passes first (by omega) reached endsFirst

end

theorem value_of_passes (s : Sum) {budget : Nat} (fits : s.need ≤ budget)
    (passes : c.Passes s.tokens e) (ends : EndsSum e.current.value) :
    value budget c = .ok (s.tree, e) := by
  rw [Sum.tree, extent_of_passes passes s.tokens_ne_nil]
  have computed : evaluate levels budget c = .ok (s.value, e) := sum_of_passes s fits passes ends
  rw [value, bind_of_ok (show Parser.current c = .ok (c.current, c) from rfl), bind_of_ok computed]
  rfl

end Arithmetic

namespace Grammar

open EventQuery.Parser EventQuery.Derivation EventQuery.Arithmetic

variable {c d e : Cursor}

theorem reference_of_passes (r : Reference) (passes : c.Passes r.tokens e) :
    reference c = .ok (r.tree, e) := by
  obtain ⟨_, name, rest⟩ := (Cursor.passes_cons_iff ..).mp passes
  obtain ⟨_, dot, property⟩ := (Cursor.passes_cons_iff ..).mp rest
  rw [reference, bind_of_ok (expectWord_of_passes name), bind_of_ok (expectToken_of_passes dot),
    bind_of_ok (expectWord_of_passes property)]
  rfl

theorem referenceFirst_of_passes (left : Reference) (op : Located Comparison) (right : Sum)
    {budget : Nat} (fits : right.need ≤ budget)
    (passes : c.Passes (left.tokens ++ op.token .comparison :: right.tokens) e)
    (ends : EndsSum e.current.value) :
    referenceFirst budget c = .ok (.ofPredicate left.tree (op.token .comparison) right.tree, e) := by
  obtain ⟨_, front, later⟩ := (Cursor.passes_append ..).mp passes
  obtain ⟨_, comparison, back⟩ := (Cursor.passes_cons_iff ..).mp later
  rw [referenceFirst, bind_of_ok (reference_of_passes left front),
    bind_of_ok (expectComparison_of_passes comparison),
    bind_of_ok (value_of_passes right fits back ends)]
  rfl

theorem valueFirst_of_passes (left : Sum) (op : Located Comparison) (right : Reference)
    {budget : Nat} (fits : left.need ≤ budget)
    (passes : c.Passes (left.tokens ++ op.token .comparison :: right.tokens) e) :
    valueFirst budget c = .ok (.ofPredicate left.tree (op.token .comparison) right.tree, e) := by
  obtain ⟨d, front, later⟩ := (Cursor.passes_append ..).mp passes
  obtain ⟨_, comparison, back⟩ := (Cursor.passes_cons_iff ..).mp later
  have ends : EndsSum d.current.value := by
    rw [comparison.next.1]
    exact ⟨rfl, rfl⟩
  rw [valueFirst, bind_of_ok (value_of_passes left fits front ends),
    bind_of_ok (expectComparison_of_passes comparison), bind_of_ok (reference_of_passes right back)]
  rfl

/-- A bare sum begins neither with a parenthesis nor with a word. -/
theorem condition_of_bare {s : Sum} {back : List (Located Token)} (budget : Nat) (bare : s.Bare)
    (passes : c.Passes (s.tokens ++ back) e) : condition budget c = valueFirst budget c := by
  obtain ⟨t, rest, spelled, begins⟩ := s.tokens_eq_cons
  have plain := bare t (by rw [spelled]; rfl)
  rw [spelled] at passes
  have here : c.current = t := passes.1
  rw [condition_eq, bind_of_ok peek_run, here]
  rcases begins with minus | opening | ⟨lexeme, number⟩
  · rw [minus]
  · exact absurd opening plain
  · rw [number]

mutual

theorem condition_of_passes (a : Atom) {budget : Nat} {c e : Cursor} (fits : a.need ≤ budget)
    (passes : c.Passes a.tokens e) (ends : EndsSum e.current.value) :
    condition budget c = .ok (a.tree, e) := by
  cases a with
  | parens opening inside closing =>
    have here : c.current.value = .leftParen := congrArg Located.value passes.1
    rw [Atom.need] at fits
    obtain ⟨k, rfl⟩ : ∃ k, budget = k + 1 := ⟨budget - 1, by omega⟩
    rw [condition_eq, bind_of_ok peek_run, here]
    apply enclosed_of_passes passes
    intro _ _ within closes
    exact formula_of_passes inside (by omega) within (by rw [closes]; exact ⟨⟨rfl, rfl⟩, rfl⟩)
  | referenceFirst left op right =>
    have here : c.current.value = .word left.name.value := congrArg Located.value passes.1
    rw [condition_eq, bind_of_ok peek_run, here]
    exact referenceFirst_of_passes left op right fits passes ends
  | valueFirst left bare op right =>
    rw [condition_of_bare budget bare passes]
    exact valueFirst_of_passes left op right fits passes

theorem formula_of_passes (f : Formula) {budget : Nat} {c e : Cursor} (fits : f.need ≤ budget)
    (passes : c.Passes f.tokens e) (ends : EndsFormula e.current.value) :
    formula budget c = .ok (f.tree, e) := by
  rw [formula_eq]
  cases f with
  | negation keyword inside =>
    obtain ⟨d, first, later⟩ := (Cursor.passes_cons_iff ..).mp passes
    have here : c.current.value = .notKeyword := congrArg Located.value first.next.1
    rw [Formula.need] at fits
    obtain ⟨k, rfl⟩ : ∃ k, budget = k + 1 := ⟨budget - 1, by omega⟩
    have negated : condition (k + 1) c = .ok (.branch .negation [inside.tree], e) := by
      rw [condition_eq, bind_of_ok peek_run, here]
      show (advance >>= fun _ => formula k >>= fun inner =>
        pure (Query.branch .negation [inner])) c = _
      rw [bind_of_ok (advance_of_passes first),
        bind_of_ok (formula_of_passes inside (by omega) later ends)]
      rfl
    exact chain_of_last negated ends.2
  | last only => exact chain_of_last (condition_of_passes only fits passes ends.1) ends.2
  | more first op rest =>
    rw [Formula.need] at fits
    obtain ⟨k, rfl⟩ : ∃ k, budget = k + 1 := ⟨budget - 1, by omega⟩
    obtain ⟨d, front, later⟩ := (Cursor.passes_append ..).mp passes
    obtain ⟨d', operator, back⟩ := (Cursor.passes_cons_iff ..).mp later
    have endsFirst : EndsSum d.current.value := by
      rw [operator.next.1]
      exact endsSum_of_logical? op.known
    exact chain_of_more (condition_of_passes first (by omega) front endsFirst) op.known operator
      (formula_of_passes rest (by omega) back ends)

end

theorem binding_of_passes {relation name : Located String} {keyword : Span}
    (passes : c.Passes [relation.token .relation, ⟨.asKeyword, keyword⟩, name.token .word] e) :
    binding c = .ok (.ofBinding (relation.token .relation) (name.token .word), e) := by
  obtain ⟨_, first, rest⟩ := (Cursor.passes_cons_iff ..).mp passes
  obtain ⟨_, second, last⟩ := (Cursor.passes_cons_iff ..).mp rest
  rw [binding, bind_of_ok (advance_of_passes first), bind_of_ok (expectToken_of_passes second),
    bind_of_ok (expectWord_of_passes last)]
  rfl

theorem repeated_of_passes {plus : Option Span} (inner : Query)
    (passes : c.Passes (optionalToken .plus plus) d) (ends : d.current.value ≠ .plus) :
    repeated inner c = .ok (withPlus plus inner, d) := by
  cases plus with
  | none =>
    cases passes
    rw [repeated, bind_of_ok peek_run, if_neg ends]
    rfl
  | some span =>
    have here : c.current.value = .plus := congrArg Located.value passes.next.1
    rw [repeated, bind_of_ok peek_run, if_pos here, bind_of_ok (advance_of_passes passes)]
    rfl

theorem filtered_of_passes {filter : Option (Span × Formula)} (inner : Query) {budget : Nat}
    (fits : filterNeed filter ≤ budget) (passes : c.Passes (filterTokens filter) d)
    (ends : EndsOperand d.current.value) :
    filtered budget inner c = .ok (withFilter filter inner, d) := by
  match filter with
  | none =>
    cases passes
    rw [filtered, bind_of_ok peek_run, if_neg ends.2]
    rfl
  | some (keyword, condition) =>
    obtain ⟨_, first, later⟩ := (Cursor.passes_cons_iff ..).mp passes
    have here : c.current.value = .filterKeyword := congrArg Located.value first.next.1
    rw [filtered, bind_of_ok peek_run, if_pos here, bind_of_ok (advance_of_passes first),
      bind_of_ok (formula_of_passes condition fits later ends.1)]
    rfl

/-- Neither a filter nor what follows an operand begins with a plus. -/
theorem ne_plus_of_filter {filter : Option (Span × Formula)}
    (passes : c.Passes (filterTokens filter) d) (ends : EndsOperand d.current.value) :
    c.current.value ≠ .plus := by
  intro plus
  match filter with
  | none =>
    cases passes
    rw [plus] at ends
    cases ends.1.1.1
  | some (keyword, condition) =>
    have here : c.current.value = .filterKeyword := congrArg Located.value passes.1
    rw [plus] at here
    cases here

mutual

theorem term_of_passes (t : Term) {budget : Nat} {c e : Cursor} (fits : t.need ≤ budget)
    (passes : c.Passes t.tokens e) : term budget c = .ok (t.tree, e) := by
  cases t with
  | parens opening inside closing =>
    have here : c.current.value = .leftParen := congrArg Located.value passes.1
    rw [Term.need] at fits
    obtain ⟨k, rfl⟩ : ∃ k, budget = k + 1 := ⟨budget - 1, by omega⟩
    rw [term_eq, bind_of_ok peek_run, here]
    apply enclosed_of_passes passes
    intro _ _ within closes
    exact query_of_passes inside (by omega) within
      (by rw [closes]; exact ⟨⟨⟨⟨rfl, rfl⟩, rfl⟩, Token.noConfusion⟩, rfl⟩)
  | binding relation keyword name =>
    have here : c.current.value = .relation relation.value := congrArg Located.value passes.1
    rw [term_eq, bind_of_ok peek_run, here]
    exact binding_of_passes passes

theorem operand_of_passes (o : Operand) {budget : Nat} {c e : Cursor} (fits : o.need ≤ budget)
    (passes : c.Passes o.tokens e) (ends : EndsOperand e.current.value) :
    operand budget c = .ok (o.tree, e) := by
  obtain ⟨t, plus, filter⟩ := o
  rw [Operand.need] at fits
  obtain ⟨d, front, filterPasses⟩ := (Cursor.passes_append ..).mp passes
  obtain ⟨_, termPasses, plusPasses⟩ := (Cursor.passes_append ..).mp front
  rw [operand, bind_of_ok (term_of_passes t (by omega) termPasses),
    bind_of_ok (repeated_of_passes t.tree plusPasses (ne_plus_of_filter filterPasses ends))]
  exact filtered_of_passes _ (by omega) filterPasses ends

theorem query_of_passes (r : Relations) {budget : Nat} {c e : Cursor} (fits : r.need ≤ budget)
    (passes : c.Passes r.tokens e) (ends : EndsQuery e.current.value) :
    query budget c = .ok (r.tree, e) := by
  rw [query_eq]
  cases r with
  | last only => exact chain_of_last (operand_of_passes only fits passes ends.1) ends.2
  | more first op rest =>
    rw [Relations.need] at fits
    obtain ⟨k, rfl⟩ : ∃ k, budget = k + 1 := ⟨budget - 1, by omega⟩
    obtain ⟨d, front, later⟩ := (Cursor.passes_append ..).mp passes
    obtain ⟨d', operator, back⟩ := (Cursor.passes_cons_iff ..).mp later
    have endsFirst : EndsOperand d.current.value := by
      rw [operator.next.1]
      exact endsOperand_of_relational? op.known
    exact chain_of_more (operand_of_passes first (by omega) front endsFirst) op.known operator
      (query_of_passes rest (by omega) back ends)

end

theorem wholeQuery_of_passes (r : Relations) {budget : Nat} (fits : r.need ≤ budget)
    (passes : c.Passes r.tokens e) (ends : e.ahead = []) :
    wholeQuery budget c = .ok (r.tree, e) := by
  have atEnd : e.atEnd = true := List.isEmpty_iff.mpr ends
  have closes : EndsQuery e.current.value := by
    rw [Cursor.current, ends]
    exact ⟨⟨⟨⟨rfl, rfl⟩, rfl⟩, Token.noConfusion⟩, rfl⟩
  rw [wholeQuery, bind_of_ok (query_of_passes r fits passes closes),
    bind_of_ok (show (MonadState.get : Parser Cursor) e = .ok (e, e) from rfl), if_pos atEnd]
  rfl

end Grammar

end EventQuery
