import EventQuery.Proofs.Grammar.Lookahead
import EventQuery.Proofs.Grammar.Unfolding

set_option autoImplicit false

namespace EventQuery

open EventQuery.Parser EventQuery.Query

variable {c : Cursor}

theorem Parser.Retraces.enclosed {α α' : Type} {R : α → α' → Prop} {budget : Nat}
    {inside : Nat → Parser α} {inside' : Nat → Parser α'} (opening : c.current.value = .leftParen)
    (inner : ∀ k d, k < budget → Retraces R (inside k) (inside' k) d) :
    Retraces R (Parser.enclosed budget inside) (Parser.enclosed budget inside') c := by
  apply Retraces.nested
  intro k below
  have more : c.current.value ≠ .endOfInput := by
    rw [opening]
    exact Token.noConfusion
  apply (Retraces.advance more).bind
  intro _ _ d _ _
  apply (inner k d below).bind
  intro x x' e _ same
  apply (Retraces.expect rfl).bind
  intro _ _ f _ _
  exact Retraces.pure same

namespace Arithmetic

theorem Level.operator?_endOfInput (level : Level) : level.operator? .endOfInput = none := rfl

theorem signed_retraces {allowed : Bool} {operand : Parser Float}
    (retraces : ∀ c, Retraces Eq operand operand c) :
    Retraces Eq (signed allowed operand) (signed allowed operand) c := by
  apply Retraces.peek
  intro t here
  split
  · rename_i negated
    have minus : t = .minus := by simpa using (Bool.and_eq_true_iff.mp negated).2
    have more : c.current.value ≠ .endOfInput := by
      rw [here, minus]
      exact Token.noConfusion
    apply (Retraces.advance more).bind
    intro _ _ d _ _
    apply (retraces d).bind
    intro x x' e _ same
    exact Retraces.pure (by rw [same])
  · exact retraces c

theorem number_retraces {lexeme : String} (present : c.current.value ≠ .endOfInput) :
    Retraces Eq (number lexeme) (number lexeme) c := by
  unfold number
  split
  · exact Retraces.fail
  · exact (Retraces.advance present).bind fun _ _ d _ _ => Retraces.pure rfl

/-- Over any levels, by induction on the budget and on the levels that are left. -/
theorem expression_retraces (levels : List Level) (budget : Nat) :
    ∀ (rest : List Level) (c : Cursor),
      Retraces Eq (expression levels budget rest) (expression levels budget rest) c := by
  induction budget using Nat.strongRecOn with
  | ind budget deeper =>
    intro rest
    induction rest with
    | nil =>
      intro c
      rw [expression]
      apply Retraces.peek
      intro t here
      split
      · exact Retraces.enclosed here fun k d below => deeper k below levels d
      · exact number_retraces (by simp [here])
      · exact Retraces.fail
    | cons level tighter ih =>
      intro c
      rw [expression]
      apply (signed_retraces ih).bind
      intro first first' d _ same
      refine Retraces.climb level.operator?_endOfInput ?_ (fun k below e => ?_) same
      · rintro op x x' y y' rfl rfl
        rfl
      · exact signed_retraces (deeper k below tighter)

theorem value_retraces (budget : Nat) :
    Retraces SameButPlaces (value budget) (value budget) c := by
  apply Retraces.current.bind
  intro first first' d _ _
  apply (expression_retraces levels budget levels d).bind
  intro x x' e _ same
  apply Retraces.get.bind
  intro f f' g _ _
  cases same
  exact Retraces.pure (SameButPlaces.ofValue x _ _)

end Arithmetic

namespace Grammar

open EventQuery.Arithmetic

theorem relationOperator?_endOfInput : relationOperator? .endOfInput = none := rfl

theorem filterConnective?_endOfInput : filterConnective? .endOfInput = none := rfl

theorem combine_sameButPlaces (kind : Query.Kind) (left left' right right' : Query)
    (first : SameButPlaces left left') (second : SameButPlaces right right') :
    SameButPlaces (combine kind left right) (combine kind left' right') :=
  first.binary second

theorem reference_retraces : Retraces SameButPlaces reference reference c := by
  apply (Retraces.expect rfl).bind
  intro name name' d _ sameName
  apply (Retraces.expect rfl).bind
  intro _ _ e _ _
  apply (Retraces.expect rfl).bind
  intro property property' f _ sameProperty
  exact Retraces.pure (SameButPlaces.ofReference sameName sameProperty)

theorem referenceFirst_retraces (budget : Nat) :
    Retraces SameButPlaces (referenceFirst budget) (referenceFirst budget) c := by
  apply reference_retraces.bind
  intro left left' d _ sameLeft
  apply (Retraces.expect rfl).bind
  intro op op' e _ sameOp
  apply (value_retraces budget).bind
  intro right right' f _ sameRight
  exact Retraces.pure (sameLeft.ofPredicate sameOp sameRight)

theorem valueFirst_retraces (budget : Nat) :
    Retraces SameButPlaces (valueFirst budget) (valueFirst budget) c := by
  apply (value_retraces budget).bind
  intro left left' d _ sameLeft
  apply (Retraces.expect rfl).bind
  intro op op' e _ sameOp
  apply reference_retraces.bind
  intro right right' f _ sameRight
  exact Retraces.pure (sameLeft.ofPredicate sameOp sameRight)

mutual

theorem formula_retraces (budget : Nat) (c : Cursor) :
    Retraces SameButPlaces (formula budget) (formula budget) c := by
  rw [formula]
  apply (condition_retraces budget c).bind
  intro first first' d _ same
  exact Retraces.climb filterConnective?_endOfInput combine_sameButPlaces
    (fun k below e => condition_retraces k e) same
termination_by 2 * budget + 1

theorem condition_retraces (budget : Nat) (c : Cursor) :
    Retraces SameButPlaces (condition budget) (condition budget) c := by
  rw [condition_eq]
  apply Retraces.peek
  intro t here
  split
  · apply Retraces.nested
    intro k below
    have more : c.current.value ≠ .endOfInput := by simp [here]
    apply (Retraces.advance more).bind
    intro _ _ d _ _
    apply (formula_retraces k d).bind
    intro inner inner' e _ same
    exact Retraces.pure same.unary
  · exact Retraces.enclosed here fun k d below => formula_retraces k d
  · exact referenceFirst_retraces budget
  · exact valueFirst_retraces budget
termination_by 2 * budget

end

theorem binding_retraces (present : c.current.value ≠ .endOfInput) :
    Retraces SameButPlaces binding binding c := by
  apply (Retraces.advance present).bind
  intro relation relation' d _ sameRelation
  apply (Retraces.expect rfl).bind
  intro _ _ e _ _
  apply (Retraces.expect rfl).bind
  intro name name' f _ sameName
  exact Retraces.pure (SameButPlaces.ofBinding sameRelation sameName)

theorem repeated_retraces {inner inner' : Query} (same : SameButPlaces inner inner') :
    Retraces SameButPlaces (repeated inner) (repeated inner') c := by
  apply Retraces.peek
  intro t here
  by_cases plus : t = .plus
  · rw [if_pos plus, if_pos plus]
    have more : c.current.value ≠ .endOfInput := by simp [here, plus]
    exact (Retraces.advance more).bind fun _ _ d _ _ => Retraces.pure same.unary
  · rw [if_neg plus, if_neg plus]
    exact Retraces.pure same

theorem filtered_retraces (budget : Nat) {inner inner' : Query}
    (same : SameButPlaces inner inner') :
    Retraces SameButPlaces (filtered budget inner) (filtered budget inner') c := by
  apply Retraces.peek
  intro t here
  by_cases filters : t = .filterKeyword
  · rw [if_pos filters, if_pos filters]
    have more : c.current.value ≠ .endOfInput := by simp [here, filters]
    apply (Retraces.advance more).bind
    intro _ _ d _ _
    apply (formula_retraces budget d).bind
    intro held held' e _ sameHeld
    exact Retraces.pure (same.binary sameHeld)
  · rw [if_neg filters, if_neg filters]
    exact Retraces.pure same

mutual

theorem query_retraces (budget : Nat) (c : Cursor) :
    Retraces SameButPlaces (query budget) (query budget) c := by
  rw [query]
  apply (operand_retraces budget c).bind
  intro first first' d _ same
  exact Retraces.climb relationOperator?_endOfInput combine_sameButPlaces
    (fun k below e => operand_retraces k e) same
termination_by 3 * budget + 2

theorem operand_retraces (budget : Nat) (c : Cursor) :
    Retraces SameButPlaces (operand budget) (operand budget) c := by
  rw [operand]
  apply (term_retraces budget c).bind
  intro inner inner' d _ same
  apply (repeated_retraces same).bind
  intro often often' e _ sameOften
  exact filtered_retraces budget sameOften
termination_by 3 * budget + 1

theorem term_retraces (budget : Nat) (c : Cursor) :
    Retraces SameButPlaces (term budget) (term budget) c := by
  rw [term_eq]
  apply Retraces.peek
  intro t here
  split
  · exact Retraces.enclosed here fun k d below => query_retraces k d
  · exact binding_retraces (by simp [here])
  · exact Retraces.fail
termination_by 3 * budget

end

theorem wholeQuery_retraces (budget : Nat) (c : Cursor) :
    Retraces SameButPlaces (wholeQuery budget) (wholeQuery budget) c := by
  apply (query_retraces budget c).bind
  intro tree tree' d _ same
  apply Retraces.get.bind
  intro e e' f _ alike
  rw [← alike.atEnd]
  split
  · exact Retraces.pure same
  · exact Retraces.fail

end Grammar

end EventQuery
