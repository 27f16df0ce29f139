import EventQuery.Proofs.Grammar.Language
import EventQuery.Proofs.Grammar.Progress

/- Input that trails behind a complete query. No production inside a query expects the end of the
input, so a fault that does is found behind a query and before more input, and nowhere else. -/

set_option autoImplicit false

namespace EventQuery

namespace Parser

variable {α β ω : Type}

/-- The parser does not fail for want of the end of the input. -/
def NeverExpectsEnd (p : Parser α) : Prop :=
  ∀ c f, p c = .error f → f.fault ≠ .unexpected .endOfInput

namespace NeverExpectsEnd

theorem pure (a : α) : NeverExpectsEnd (Pure.pure a : Parser α) := by
  rintro c f ⟨⟩

theorem peek : NeverExpectsEnd Parser.peek := by
  rintro c f ⟨⟩

theorem current : NeverExpectsEnd Parser.current := by
  rintro c f ⟨⟩

theorem get : NeverExpectsEnd (MonadState.get : Parser Cursor) := by
  rintro c f ⟨⟩

theorem fail {expected : Expectation} (other : expected ≠ .endOfInput) :
    NeverExpectsEnd (Parser.fail expected : Parser α) := by
  rintro c f ⟨⟩ same
  exact other (Fault.unexpected.inj same)

theorem advance : NeverExpectsEnd Parser.advance := by
  intro c f failed
  unfold Parser.advance at failed
  split at failed
  · cases failed
  · cases failed
    exact Fault.noConfusion

theorem bind {p : Parser α} {q : α → Parser β} (first : NeverExpectsEnd p)
    (second : ∀ a, NeverExpectsEnd (q a)) : NeverExpectsEnd (p >>= q) := by
  intro c f failed
  cases ran : p c with
  | error g =>
    rw [bind_of_error ran] at failed
    cases failed
    exact first c f ran
  | ok result =>
    obtain ⟨a, d⟩ := result
    rw [bind_of_ok ran] at failed
    exact second a d f failed

theorem expect {accepted : Token → Bool} {expected : Expectation} (other : expected ≠ .endOfInput) :
    NeverExpectsEnd (Parser.expect accepted expected) := by
  apply peek.bind
  intro t
  split
  · exact advance
  · exact fail other

theorem nested {budget : Nat} {production : (k : Nat) → k < budget → Parser α}
    (deeper : ∀ k below, NeverExpectsEnd (production k below)) :
    NeverExpectsEnd (Parser.nested budget production) := by
  cases budget with
  | zero => exact fail (by decide)
  | succ k => exact deeper k (Nat.lt_succ_self k)

theorem chain {operator : Token → Option ω} {combine : ω → α → α → α} {budget : Nat}
    {head : Parser α} {rest : Nat → Parser α} (first : NeverExpectsEnd head)
    (others : ∀ k, k < budget → NeverExpectsEnd (rest k)) :
    NeverExpectsEnd (Parser.chain operator combine budget head rest) := by
  apply first.bind
  intro a
  apply peek.bind
  intro t
  split
  · exact pure a
  · apply nested
    intro k below
    apply advance.bind
    intro _
    apply (others k below).bind
    intro b
    exact pure _

theorem enclosed {budget : Nat} {inside : Nat → Parser α}
    (deeper : ∀ k, k < budget → NeverExpectsEnd (inside k)) :
    NeverExpectsEnd (Parser.enclosed budget inside) := by
  apply nested
  intro k below
  apply advance.bind
  intro _
  apply (deeper k below).bind
  intro a
  have closing : NeverExpectsEnd (expectToken .rightParen .closing) := expect (by decide)
  apply closing.bind
  intro _
  exact pure a

end NeverExpectsEnd

end Parser

open EventQuery.Parser (NeverExpectsEnd)

namespace Arithmetic

theorem signed_neverExpectsEnd {allowed : Bool} {operand : Parser Float}
    (operands : NeverExpectsEnd operand) : NeverExpectsEnd (signed allowed operand) := by
  apply NeverExpectsEnd.peek.bind
  intro t
  split
  · apply NeverExpectsEnd.advance.bind
    intro _
    apply operands.bind
    intro x
    exact .pure _
  · exact operands

theorem number_neverExpectsEnd (lexeme : String) : NeverExpectsEnd (number lexeme) := by
  unfold number
  split
  · exact .fail (by decide)
  · apply NeverExpectsEnd.advance.bind
    intro _
    exact .pure _

mutual

theorem sum_neverExpectsEnd (budget : Nat) : NeverExpectsEnd (sum budget) := by
  rw [sum_eq]
  exact .chain (signed_neverExpectsEnd (product_neverExpectsEnd budget))
    fun k below => sum_neverExpectsEnd k
termination_by 3 * budget + 2

theorem product_neverExpectsEnd (budget : Nat) : NeverExpectsEnd (product budget) := by
  rw [product_eq]
  exact .chain (primary_neverExpectsEnd budget) fun k below => factors_neverExpectsEnd k
termination_by 3 * budget + 1

theorem factors_neverExpectsEnd (budget : Nat) : NeverExpectsEnd (factors budget) := by
  rw [factors_eq]
  exact .chain (signed_neverExpectsEnd (primary_neverExpectsEnd budget))
    fun k below => factors_neverExpectsEnd k
termination_by 3 * budget + 1

theorem primary_neverExpectsEnd (budget : Nat) : NeverExpectsEnd (primary budget) := by
  rw [primary_eq]
  apply NeverExpectsEnd.peek.bind
  intro t
  split
  · exact .enclosed fun k below => sum_neverExpectsEnd k
  · exact number_neverExpectsEnd _
  · exact .fail (by decide)
termination_by 3 * budget

end

theorem value_neverExpectsEnd (budget : Nat) : NeverExpectsEnd (value budget) := by
  apply NeverExpectsEnd.current.bind
  intro first
  apply (sum_neverExpectsEnd budget).bind
  intro x
  apply NeverExpectsEnd.get.bind
  intro c
  exact .pure _

end Arithmetic

namespace Grammar

theorem reference_neverExpectsEnd : NeverExpectsEnd reference := by
  have name : NeverExpectsEnd (Parser.expectWord .variableName) := .expect (by decide)
  have dot : NeverExpectsEnd (Parser.expectToken .dot .dot) := .expect (by decide)
  have property : NeverExpectsEnd (Parser.expectWord .propertyName) := .expect (by decide)
  exact name.bind fun _ => dot.bind fun _ => property.bind fun _ => .pure _

theorem comparison_neverExpectsEnd : NeverExpectsEnd Parser.expectComparison :=
  .expect (by decide)

theorem referenceFirst_neverExpectsEnd (budget : Nat) :
    NeverExpectsEnd (referenceFirst budget) :=
  reference_neverExpectsEnd.bind fun _ => comparison_neverExpectsEnd.bind fun _ =>
    (Arithmetic.value_neverExpectsEnd budget).bind fun _ => .pure _

theorem valueFirst_neverExpectsEnd (budget : Nat) : NeverExpectsEnd (valueFirst budget) :=
  (Arithmetic.value_neverExpectsEnd budget).bind fun _ => comparison_neverExpectsEnd.bind fun _ =>
    reference_neverExpectsEnd.bind fun _ => .pure _

mutual

theorem formula_neverExpectsEnd (budget : Nat) : NeverExpectsEnd (formula budget) := by
  rw [formula_eq]
  exact .chain (condition_neverExpectsEnd budget) fun k below => formula_neverExpectsEnd k
termination_by 2 * budget + 1

theorem condition_neverExpectsEnd (budget : Nat) : NeverExpectsEnd (condition budget) := by
  rw [condition_eq]
  apply NeverExpectsEnd.peek.bind
  intro t
  split
  · apply NeverExpectsEnd.nested
    intro k below
    apply NeverExpectsEnd.advance.bind
    intro _
    apply (formula_neverExpectsEnd k).bind
    intro inner
    exact .pure _
  · exact .enclosed fun k below => formula_neverExpectsEnd k
  · exact referenceFirst_neverExpectsEnd budget
  · exact valueFirst_neverExpectsEnd budget
termination_by 2 * budget

end

theorem binding_neverExpectsEnd : NeverExpectsEnd binding := by
  have keyword : NeverExpectsEnd (Parser.expectToken .asKeyword .asKeyword) := .expect (by decide)
  have name : NeverExpectsEnd (Parser.expectWord .variableName) := .expect (by decide)
  exact NeverExpectsEnd.advance.bind fun _ => keyword.bind fun _ => name.bind fun _ => .pure _

theorem repeated_neverExpectsEnd (inner : Query) : NeverExpectsEnd (repeated inner) := by
  apply NeverExpectsEnd.peek.bind
  intro t
  split
  · exact NeverExpectsEnd.advance.bind fun _ => .pure _
  · exact .pure _

theorem filtered_neverExpectsEnd (budget : Nat) (inner : Query) :
    NeverExpectsEnd (filtered budget inner) := by
  apply NeverExpectsEnd.peek.bind
  intro t
  split
  · exact NeverExpectsEnd.advance.bind fun _ =>
      (formula_neverExpectsEnd budget).bind fun _ => .pure _
  · exact .pure _

mutual

theorem query_neverExpectsEnd (budget : Nat) : NeverExpectsEnd (query budget) := by
  rw [query_eq]
  exact .chain (operand_neverExpectsEnd budget) fun k below => query_neverExpectsEnd k
termination_by 3 * budget + 2

theorem operand_neverExpectsEnd (budget : Nat) : NeverExpectsEnd (operand budget) := by
  rw [operand]
  exact (term_neverExpectsEnd budget).bind fun inner => (repeated_neverExpectsEnd inner).bind
    fun often => filtered_neverExpectsEnd budget often
termination_by 3 * budget + 1

theorem term_neverExpectsEnd (budget : Nat) : NeverExpectsEnd (term budget) := by
  rw [term_eq]
  apply NeverExpectsEnd.peek.bind
  intro t
  split
  · exact .enclosed fun k below => query_neverExpectsEnd k
  · exact binding_neverExpectsEnd
  · exact .fail (by decide)
termination_by 3 * budget

end

end Grammar

/-- A complete query begins the stream, and more input follows it. -/
def TokenStream.Trails (s : TokenStream) : Prop :=
  ∃ tree rest, Grammar.query maxNesting (.ofStream s) = .ok (tree, rest) ∧ rest.atEnd = false

theorem Grammar.wholeQuery_expects_end_iff {budget : Nat} {c : Cursor} {f : Failure}
    (failed : wholeQuery budget c = .error f) :
    f.fault = .unexpected .endOfInput ↔
      ∃ tree rest, query budget c = .ok (tree, rest) ∧ rest.atEnd = false := by
  unfold wholeQuery at failed
  cases ran : query budget c with
  | error g =>
    rw [Parser.bind_of_error ran] at failed
    cases failed
    have never := query_neverExpectsEnd budget c f ran
    constructor
    · exact fun expects => absurd expects never
    · rintro ⟨tree, rest, ⟨⟩, _⟩
  | ok result =>
    obtain ⟨tree, rest⟩ := result
    rw [Parser.bind_of_ok ran] at failed
    have checked : (if rest.atEnd then pure tree else Parser.fail .endOfInput : Parser Query) rest =
        .error f := failed
    by_cases ended : rest.atEnd = true
    · rw [if_pos ended] at checked
      cases checked
    · rw [if_neg ended] at checked
      cases checked
      exact ⟨fun _ => ⟨tree, rest, rfl, Bool.eq_false_iff.mpr ended⟩, fun _ => rfl⟩

/-- A fault of the grammar is one of trailing input where a complete query begins the stream. -/
theorem isTrailing_iff {name : String} {s : TokenStream} {e : SyntaxError}
    (failed : parseQuery name s = .error e) : e.isTrailing = true ↔ s.Trails := by
  rw [SyntaxError.isTrailing, decide_eq_true_eq]
  cases ran : Grammar.wholeQuery maxNesting (.ofStream s) with
  | ok result =>
    rw [parseQuery, Session.parse_of_ok ran] at failed
    cases failed
  | error f =>
    rw [parseQuery, Session.parse_of_error ran] at failed
    cases failed
    exact Grammar.wholeQuery_expects_end_iff ran

/-- Nothing trails behind a query that takes up the whole stream. -/
theorem not_trails_of_ok {name : String} {s : TokenStream} {tree : Query}
    (parsed : parseQuery name s = .ok tree) : ¬s.Trails := by
  rintro ⟨tree', rest, ran, more⟩
  have failed : Grammar.wholeQuery maxNesting (.ofStream s) =
      .error ⟨.unexpected .endOfInput, rest, 0⟩ := by
    unfold Grammar.wholeQuery
    rw [Parser.bind_of_ok ran]
    show (if rest.atEnd then pure tree' else Parser.fail .endOfInput : Parser Query) rest = _
    rw [more]
    rfl
  rw [parseQuery, Session.parse_of_error failed] at parsed
  cases parsed

end EventQuery
