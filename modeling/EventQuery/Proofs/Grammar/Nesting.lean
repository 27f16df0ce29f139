import EventQuery.Proofs.Grammar.Stepwise

set_option autoImplicit false

namespace EventQuery

namespace Walk

section Arithmetic

def signed (allowed : Bool) (operand : Walk Float) : Walk Float := do
  if allowed && (← peek) = .minus then
    let _ ← advance
    return -(← operand)
  else operand

def expression (levels : List Arithmetic.Level) (budget : Nat) :
    List Arithmetic.Level → Walk Float
  | [] => do
    match ← peek with
    | .leftParen =>
      nested budget fun k _ => do
        let _ ← advance
        let x ← expression levels k levels
        let _ ← expectToken .rightParen .closing
        return x
    | .number lexeme => step (Arithmetic.number lexeme)
    | _ => fail .operand
  | level :: tighter => do
    let first ← signed level.headSigned (expression levels budget tighter)
    climb level.table.associativity level.operator? Arithmetic.Operation.apply budget
      (fun k _ => signed level.tailSigned (expression levels k tighter)) first
termination_by rest => (budget, rest.length)

def evaluate (levels : List Arithmetic.Level) (budget : Nat) : Walk Float :=
  expression levels budget levels

def value (budget : Nat) : Walk Query := do
  let first ← step Parser.current
  let x ← evaluate Arithmetic.levels budget
  let c ← step get
  return .ofValue x (first.span.merge c.last)

end Arithmetic

section Formulas

def referenceFirst (budget : Nat) : Walk Query := do
  let left ← step Grammar.reference
  let op ← step Parser.expectComparison
  let right ← value budget
  return .ofPredicate left op right

def valueFirst (budget : Nat) : Walk Query := do
  let left ← value budget
  let op ← step Parser.expectComparison
  let right ← step Grammar.reference
  return .ofPredicate left op right

mutual

def formula (budget : Nat) : Walk Query := do
  let first ← condition budget
  climb filterConnectives.associativity filterConnective? Grammar.combine budget
    (fun k _ => condition k) first
termination_by 2 * budget + 1

def condition (budget : Nat) : Walk Query := do
  match ← peek with
  | .notKeyword =>
    nested budget fun k _ => do
      let _ ← advance
      return .branch .negation [← formula k]
  | .leftParen =>
    nested budget fun k _ => do
      let _ ← advance
      let inner ← formula k
      let _ ← expectToken .rightParen .closing
      return inner
  | .word _ => referenceFirst budget
  | _ => valueFirst budget
termination_by 2 * budget

end

end Formulas

section Relations

def filtered (budget : Nat) (inner : Query) : Walk Query := do
  if (← peek) = .filterKeyword then
    let _ ← advance
    return .branch .filter [inner, ← formula budget]
  else return inner

mutual

def query (budget : Nat) : Walk Query := do
  let first ← operand budget
  climb relationOperators.associativity relationOperator? Grammar.combine budget
    (fun k _ => operand k) first
termination_by 3 * budget + 2

def operand (budget : Nat) : Walk Query := do
  let inner ← term budget
  filtered budget (← step (Grammar.repeated inner))
termination_by 3 * budget + 1

def term (budget : Nat) : Walk Query := do
  match ← peek with
  | .leftParen =>
    nested budget fun k _ => do
      let _ ← advance
      let inner ← query k
      let _ ← expectToken .rightParen .closing
      return inner
  | .relation _ => step Grammar.binding
  | _ => fail .relation
termination_by 3 * budget

end

end Relations

/-- What stands in parentheses is walked through one level deeper. -/
theorem Traces.enclosed {α : Type} {budget : Nat} {w : Nat → Walk α} {p : Nat → Parser α}
    (inside : ∀ k < budget, Traces 0 k (w k) (p k)) :
    Traces 0 budget
      (Walk.nested budget fun k _ => do
        let _ ← advance
        let x ← w k
        let _ ← expectToken .rightParen .closing
        return x)
      (Parser.nested budget fun k _ => do
        let _ ← Parser.advance
        let x ← p k
        let _ ← Parser.expectToken .rightParen .closing
        return x) := by
  apply Traces.nested
  intro k below
  apply (Traces.step Parser.advance).bind
  intro _
  apply (inside k below).bind
  intro x
  apply (Traces.step (Parser.expectToken .rightParen .closing)).bind
  intro _
  exact Traces.pure x

theorem signed_traces {budget : Nat} {allowed : Bool} {w : Walk Float} {p : Parser Float}
    (operand : Traces 0 budget w p) :
    Traces 0 budget (signed allowed w) (Arithmetic.signed allowed p) := by
  apply (Traces.step Parser.peek).bind
  intro token
  split
  · apply (Traces.step Parser.advance).bind
    intro _
    exact operand.bind fun x => Traces.pure (-x)
  · exact operand

theorem expression_traces (levels : List Arithmetic.Level) (budget : Nat) :
    ∀ rest, Traces 0 budget (expression levels budget rest)
      (Arithmetic.expression levels budget rest) := by
  induction budget using Nat.strongRecOn with
  | ind budget deeper =>
    intro rest
    induction rest with
    | nil =>
      rw [expression, Arithmetic.expression]
      apply (Traces.step Parser.peek).bind
      intro token
      cases token with
      | leftParen => exact Traces.enclosed fun k below => deeper k below levels
      | number lexeme => exact Traces.step (Arithmetic.number lexeme)
      | _ => exact Traces.step (Parser.fail .operand)
    | cons level tighter ih =>
      rw [expression, Arithmetic.expression]
      apply (signed_traces ih).bind
      intro first
      exact Traces.climb fun k below => signed_traces (deeper k below tighter)

theorem value_traces (budget : Nat) : Traces 0 budget (value budget) (Arithmetic.value budget) := by
  apply (Traces.step Parser.current).bind
  intro first
  apply (expression_traces Arithmetic.levels budget Arithmetic.levels).bind
  intro x
  apply (Traces.step get).bind
  intro c
  exact Traces.pure _

theorem referenceFirst_traces (budget : Nat) :
    Traces 0 budget (referenceFirst budget) (Grammar.referenceFirst budget) := by
  apply (Traces.step Grammar.reference).bind
  intro left
  apply (Traces.step Parser.expectComparison).bind
  intro op
  apply (value_traces budget).bind
  intro right
  exact Traces.pure _

theorem valueFirst_traces (budget : Nat) :
    Traces 0 budget (valueFirst budget) (Grammar.valueFirst budget) := by
  apply (value_traces budget).bind
  intro left
  apply (Traces.step Parser.expectComparison).bind
  intro op
  apply (Traces.step Grammar.reference).bind
  intro right
  exact Traces.pure _

mutual

theorem formula_traces (budget : Nat) :
    Traces 0 budget (formula budget) (Grammar.formula budget) := by
  rw [formula, Grammar.formula]
  apply (condition_traces budget).bind
  intro first
  exact Traces.climb fun k _ => condition_traces k
termination_by 2 * budget + 1

theorem condition_traces (budget : Nat) :
    Traces 0 budget (condition budget) (Grammar.condition budget) := by
  rw [condition, Grammar.condition]
  apply (Traces.step Parser.peek).bind
  intro token
  cases token with
  | notKeyword =>
    apply Traces.nested
    intro k _
    apply (Traces.step Parser.advance).bind
    intro _
    apply (formula_traces k).bind
    intro inner
    exact Traces.pure _
  | leftParen => exact Traces.enclosed fun k _ => formula_traces k
  | word name => exact referenceFirst_traces budget
  | _ => exact valueFirst_traces budget
termination_by 2 * budget

end

theorem filtered_traces (budget : Nat) (inner : Query) :
    Traces 0 budget (filtered budget inner) (Grammar.filtered budget inner) := by
  apply (Traces.step Parser.peek).bind
  intro token
  split
  · apply (Traces.step Parser.advance).bind
    intro _
    apply (formula_traces budget).bind
    intro condition
    exact Traces.pure _
  · exact Traces.pure inner

mutual

theorem query_traces (budget : Nat) : Traces 0 budget (query budget) (Grammar.query budget) := by
  rw [query, Grammar.query]
  apply (operand_traces budget).bind
  intro first
  exact Traces.climb fun k _ => operand_traces k
termination_by 3 * budget + 2

theorem operand_traces (budget : Nat) :
    Traces 0 budget (operand budget) (Grammar.operand budget) := by
  rw [operand, Grammar.operand]
  apply (term_traces budget).bind
  intro inner
  apply (Traces.step (Grammar.repeated inner)).bind
  intro repeated
  exact filtered_traces budget repeated
termination_by 3 * budget + 1

theorem term_traces (budget : Nat) : Traces 0 budget (term budget) (Grammar.term budget) := by
  rw [term, Grammar.term]
  apply (Traces.step Parser.peek).bind
  intro token
  cases token with
  | leftParen => exact Traces.enclosed fun k _ => query_traces k
  | relation name => exact Traces.step Grammar.binding
  | _ => exact Traces.step (Parser.fail .relation)
termination_by 3 * budget

end

end Walk

namespace Arithmetic

open EventQuery.Parser

theorem signed_closes {allowed : Bool} {operand : Parser Float} (operands : operand.Closes) :
    (signed allowed operand).Closes := by
  apply Closes.peek.bind
  intro token
  split
  · apply Closes.advance.bind
    intro _
    exact operands.bind fun x => Closes.pure (-x)
  · exact operands

theorem number_closes (lexeme : String) : (number lexeme).Closes := by
  unfold number
  split
  · exact Closes.fail .number
  · exact Closes.advance.bind fun _ => Closes.pure _

/-- Chains to the right give their levels back where they fail, and there are no other chains in the
levels of an expression. -/
theorem expression_closes {levels : List Level}
    (right : ∀ level ∈ levels, level.table.associativity = .right) (budget : Nat) :
    ∀ rest ⊆ levels, (expression levels budget rest).Closes := by
  induction budget using Nat.strongRecOn with
  | ind budget deeper =>
    intro rest
    induction rest with
    | nil =>
      intro _
      rw [expression]
      apply Closes.peek.bind
      intro token
      split
      · apply Closes.nested
        intro k below
        apply Closes.advance.bind
        intro _
        apply (deeper k below levels (List.Subset.refl levels)).bind
        intro x
        exact (Closes.expect _ _).bind fun _ => Closes.pure x
      · exact number_closes _
      · exact Closes.fail .operand
    | cons level tighter ih =>
      intro inside
      obtain ⟨member, others⟩ := List.cons_subset.mp inside
      rw [expression]
      apply (signed_closes (ih others)).bind
      intro first
      rw [right level member]
      exact Closes.climbRight fun k below => signed_closes (deeper k below tighter others)

theorem value_closes (budget : Nat) : (value budget).Closes := by
  have right : ∀ level ∈ levels, level.table.associativity = .right := by simp [levels]
  have computed : (evaluate levels budget).Closes :=
    expression_closes right budget levels (List.Subset.refl levels)
  have first : Parser.current.Closes := fun _ _ failed => nomatch failed
  apply first.bind
  intro token
  apply computed.bind
  intro x
  have place : Closes (get : Parser Cursor) := fun _ _ failed => nomatch failed
  exact place.bind fun _ => Closes.pure _

end Arithmetic

/-- From a trail, the production taken level by level comes to what it comes to when it is run there,
and the depth is what it was. On the way no more levels are opened than there may be, and none is
given back where none is open. -/
structure GivesBack {α : Type} (walk : Nat → Walk α) (production : Nat → Parser α) (t : Trail) :
    Prop where
  agrees : Walk.outcome (walk (maxNesting - t.session.depth) t) = t.session.run production
  depth : (t.session.run production).2.depth = t.session.depth
  sound : ∃ moves, (Walk.trail (walk (maxNesting - t.session.depth) t)).moves = moves ++ t.moves ∧
    ∀ m ∈ moves, m.Sound

namespace Walk

variable {α : Type} {t : Trail}

theorem Traces.givesBack {walk : Nat → Walk α} {production : Nat → Parser α}
    (traces : ∀ budget, Traces 0 budget (walk budget) (production budget))
    (closes : ∀ budget, (production budget).Closes) (within : t.session.depth ≤ maxNesting) :
    GivesBack walk production t := by
  obtain ⟨moves, followed, sound⟩ := traces (maxNesting - t.session.depth) t
    (Nat.add_sub_cancel' within) (Nat.zero_le _)
  refine ⟨?agrees, ?depth, moves, ?sound⟩
  case agrees => rw [followed, outcome_follow]
  case depth => exact Session.run_depth closes t.session
  case sound => exact ⟨by rw [followed, moves_follow], sound⟩

end Walk

/-- Wherever a session is, at whatever depth that may be, a query, a term, an operand, a formula, a
reference, a value, and arithmetic over any levels that group to the right all give the levels back
that they open, both where they end well and where they fail. -/
theorem nesting_given_back (t : Trail) (within : t.session.depth ≤ maxNesting) :
    GivesBack Walk.query Grammar.query t ∧
    GivesBack Walk.term Grammar.term t ∧
    GivesBack Walk.operand Grammar.operand t ∧
    GivesBack Walk.formula Grammar.formula t ∧
    GivesBack (fun _ => Walk.step Grammar.reference) (fun _ => Grammar.reference) t ∧
    GivesBack Walk.value Arithmetic.value t ∧
    ∀ levels : List Arithmetic.Level, (∀ level ∈ levels, level.table.associativity = .right) →
      GivesBack (Walk.evaluate levels) (Arithmetic.evaluate levels) t := by
  refine ⟨?query, ?term, ?operand, ?formula, ?reference, ?value, ?evaluate⟩
  case query =>
    exact Walk.Traces.givesBack Walk.query_traces
      (fun budget => Parser.Reads.closes (Grammar.query_reads budget)) within
  case term =>
    exact Walk.Traces.givesBack Walk.term_traces
      (fun budget => Parser.Reads.closes (Grammar.term_reads budget)) within
  case operand =>
    exact Walk.Traces.givesBack Walk.operand_traces
      (fun budget => Parser.Reads.closes (Grammar.operand_reads budget)) within
  case formula =>
    exact Walk.Traces.givesBack Walk.formula_traces
      (fun budget => Parser.Reads.closes (Grammar.formula_reads budget)) within
  case reference =>
    exact Walk.Traces.givesBack (fun _ => Walk.Traces.step Grammar.reference)
      (fun _ => Parser.Reads.closes fun _ => Grammar.reference_reads) within
  case value =>
    exact Walk.Traces.givesBack Walk.value_traces Arithmetic.value_closes within
  case evaluate =>
    intro levels right
    exact Walk.Traces.givesBack (fun budget => Walk.expression_traces levels budget levels)
      (fun budget => Arithmetic.expression_closes right budget levels (List.Subset.refl levels))
      within

/-- `((`, with one level left. -/
def Trail.cramped : Trail :=
  ⟨⟨"q", ⟨0, [⟨.leftParen, .origin⟩, ⟨.leftParen, .origin⟩], .origin, .origin⟩, 127⟩, []⟩

/-- A level at which every operator divides. -/
def Arithmetic.Level.dividing : Arithmetic.Level := ⟨⟨[], some .divide, .right⟩, true, true⟩

/-- The second parenthesis is the limit, and the level of the first is given back. -/
theorem cramped_given_back :
    Trail.cramped.session.depth ≤ maxNesting ∧
    (GivesBack Walk.query Grammar.query .cramped ∧
      (Walk.trail (Walk.query 1 .cramped)).moves = [.closed 128, .opened 128] ∧
      (Walk.outcome (Walk.query 1 .cramped)).1 =
        .error ⟨"q", .unexpected .shallower, ⟨.leftParen, .origin⟩⟩) ∧
    GivesBack (Walk.evaluate [.dividing]) (Arithmetic.evaluate [.dividing]) .cramped ∧
      (Walk.trail (Walk.evaluate [.dividing] 1 .cramped)).moves = [.closed 128, .opened 128] := by
  obtain ⟨query, _, _, _, _, _, evaluate⟩ := nesting_given_back .cramped (by decide)
  have right : ∀ level ∈ [Arithmetic.Level.dividing], level.table.associativity = .right := by
    decide
  refine ⟨by decide, ⟨query, ?_, ?_⟩, evaluate _ right, ?_⟩ <;> cbv

end EventQuery
