import EventQuery.Proofs.Grammar.Unfolding

set_option autoImplicit false

namespace EventQuery

namespace Derivation

abbrev Sum.Spells (budget : Nat) (tokens : List (Located Token)) (x : Float) : Prop :=
  ∃ d : Sum, d.need ≤ budget ∧ d.tokens = tokens ∧ d.value = x

abbrev Product.Spells (budget : Nat) (tokens : List (Located Token)) (x : Float) : Prop :=
  ∃ d : Product, d.need ≤ budget ∧ d.tokens = tokens ∧ d.value = x

abbrev Factors.Spells (budget : Nat) (tokens : List (Located Token)) (x : Float) : Prop :=
  ∃ d : Factors, d.need ≤ budget ∧ d.tokens = tokens ∧ d.value = x

abbrev Primary.Spells (budget : Nat) (tokens : List (Located Token)) (x : Float) : Prop :=
  ∃ d : Primary, d.need ≤ budget ∧ d.tokens = tokens ∧ d.value = x

abbrev Formula.Spells (budget : Nat) (tokens : List (Located Token)) (tree : Query) : Prop :=
  ∃ d : Formula, d.need ≤ budget ∧ d.tokens = tokens ∧ d.tree = tree

abbrev Atom.Spells (budget : Nat) (tokens : List (Located Token)) (tree : Query) : Prop :=
  ∃ d : Atom, d.need ≤ budget ∧ d.tokens = tokens ∧ d.tree = tree

abbrev Relations.Spells (budget : Nat) (tokens : List (Located Token)) (tree : Query) : Prop :=
  ∃ d : Relations, d.need ≤ budget ∧ d.tokens = tokens ∧ d.tree = tree

abbrev Operand.Spells (budget : Nat) (tokens : List (Located Token)) (tree : Query) : Prop :=
  ∃ d : Operand, d.need ≤ budget ∧ d.tokens = tokens ∧ d.tree = tree

abbrev Term.Spells (budget : Nat) (tokens : List (Located Token)) (tree : Query) : Prop :=
  ∃ d : Term, d.need ≤ budget ∧ d.tokens = tokens ∧ d.tree = tree

/-- A phrase behind a sign, where there is one. -/
def Signed (phrase : List (Located Token) → Float → Prop) (tokens : List (Located Token))
    (x : Float) : Prop :=
  ∃ sign rest y, tokens = optionalToken .minus sign ++ rest ∧ phrase rest y ∧ x = withSign sign y

/-- The numeral that completes any expression. -/
def zero : Number :=
  ⟨⟨"0", .origin⟩, Decimal.Numeral.toFloat ⟨['0'], [], 0⟩, by decide +kernel⟩

def anyReference : Reference := ⟨⟨"x", .origin⟩, .origin, ⟨"p", .origin⟩⟩

def anyComparison : Located Comparison := ⟨.equal, .origin⟩

theorem Sum.zero_spells (budget : Nat) :
    Sum.Spells budget [zero.lexeme.token .number] zero.value :=
  ⟨.last none (.last (.number zero)), Nat.zero_le _, rfl, rfl⟩

theorem Product.zero_spells (budget : Nat) :
    Product.Spells budget [zero.lexeme.token .number] zero.value :=
  ⟨.last (.number zero), Nat.zero_le _, rfl, rfl⟩

theorem Factors.zero_spells (budget : Nat) :
    Factors.Spells budget [zero.lexeme.token .number] zero.value :=
  ⟨.last none (.number zero), Nat.zero_le _, rfl, rfl⟩

theorem Primary.zero_spells (budget : Nat) :
    Primary.Spells budget [zero.lexeme.token .number] zero.value :=
  ⟨.number zero, Nat.zero_le _, rfl, rfl⟩

theorem Atom.exists_spells (budget : Nat) : ∃ tokens tree, Atom.Spells budget tokens tree :=
  ⟨_, _, .referenceFirst anyReference anyComparison (.last none (.last (.number zero))),
    Nat.zero_le _, rfl, rfl⟩

theorem Formula.exists_spells (budget : Nat) : ∃ tokens tree, Formula.Spells budget tokens tree := by
  obtain ⟨_, _, atom, fits, rfl, rfl⟩ := Atom.exists_spells budget
  exact ⟨_, _, .last atom, fits, rfl, rfl⟩

theorem Term.exists_spells (budget : Nat) : ∃ tokens tree, Term.Spells budget tokens tree :=
  ⟨_, _, .binding ⟨"R", .origin⟩ .origin ⟨"x", .origin⟩, Nat.zero_le _, rfl, rfl⟩

end Derivation

namespace Arithmetic

open EventQuery.Parser EventQuery.Derivation

variable {c : Cursor}

theorem signed_reads {operand : Parser Float} {phrase : List (Located Token) → Float → Prop}
    {before : Token → Prop} (reads : ∀ d, operand.Reads d phrase before) :
    (signed true operand).Reads c (Signed phrase) before := by
  refine Reads.peek ?_
  split
  · rename_i negative
    have minus : c.current.value = .minus := by simpa using negative
    have start : c.current = ⟨.minus, c.current.span⟩ := by rw [← minus]
    refine Reads.advance (by simp [minus]) fun d _ => (reads d).bind ?_ ?_
    · intro rest x _ _ holds stopped
      refine Reads.pure ⟨some c.current.span, rest, x, ?_, holds, rfl⟩ stopped
      rw [start]
      simp [optionalToken]
    · intro rest x holds
      refine ⟨[], _, some c.current.span, rest, x, ?_, holds, rfl⟩
      rw [start]
      simp [optionalToken]
  · exact (reads c).mono (fun rest x holds => ⟨none, rest, x, rfl, holds, rfl⟩) fun _ stop => stop

theorem number_reads {lexeme : String} (here : c.current.value = .number lexeme) (budget : Nat) :
    (number lexeme).Reads c (Primary.Spells budget) fun _ => True := by
  unfold number
  split
  · exact Reads.fail _ (Primary.zero_spells budget)
  · rename_i x reads
    have same : c.current = (⟨lexeme, c.current.span⟩ : Located String).token .number := by
      rw [Located.token, ← here]
    refine Reads.advance (by simp [here]) fun d _ => Reads.pure ?_ trivial
    rw [same]
    exact ⟨.number ⟨_, x, reads⟩, Nat.zero_le _, rfl, rfl⟩

mutual

theorem primary_reads (budget : Nat) (c : Cursor) :
    (primary budget).Reads c (Primary.Spells budget) fun _ => True := by
  rw [primary_eq]
  refine Reads.peek ?_
  split
  · rename_i opening
    refine Reads.enclosed opening (fun k d _ => sum_reads k d) ?_
      ⟨_, _, Primary.zero_spells budget⟩
    intro k tokens x closing below spelled
    rcases spelled with ⟨d, fits, rfl, rfl⟩
    exact ⟨.parens c.current.span d closing, by rw [Primary.need]; omega, rfl, rfl⟩
  · rename_i lexeme here
    exact number_reads here budget
  · exact Reads.fail _ (Primary.zero_spells budget)
termination_by 4 * budget

theorem factors_reads (budget : Nat) (c : Cursor) :
    (factors budget).Reads c (Factors.Spells budget) fun t => multiplicative? t = none := by
  rw [factors_eq]
  refine Reads.chain rfl (signed_reads fun d => primary_reads budget d)
    (fun k d _ => factors_reads k d) ?_ ?_ fun _ _ ended => ended
  · intro _ _ spelled
    rcases spelled with ⟨sign, _, _, rfl, ⟨d, fits, rfl, rfl⟩, rfl⟩
    exact ⟨.last sign d, fits, rfl, rfl⟩
  · intro k _ _ _ _ op t below spelled known spelledRest
    rcases spelled with ⟨sign, _, _, rfl, ⟨d, fits, rfl, rfl⟩, rfl⟩
    rcases spelledRest with ⟨rest, fitsRest, rfl, rfl⟩
    exact ⟨.more sign d ⟨t, op, known⟩ rest, by rw [Factors.need]; omega, rfl, rfl⟩
termination_by 4 * budget + 1

theorem product_reads (budget : Nat) (c : Cursor) :
    (product budget).Reads c (Product.Spells budget) fun t => multiplicative? t = none := by
  rw [product_eq]
  refine Reads.chain rfl (primary_reads budget c) (fun k d _ => factors_reads k d) ?_ ?_
    fun _ _ ended => ended
  · intro _ _ spelled
    rcases spelled with ⟨d, fits, rfl, rfl⟩
    exact ⟨.last d, fits, rfl, rfl⟩
  · intro k _ _ _ _ op t below spelled known spelledRest
    rcases spelled with ⟨d, fits, rfl, rfl⟩
    rcases spelledRest with ⟨rest, fitsRest, rfl, rfl⟩
    exact ⟨.more d ⟨t, op, known⟩ rest, by rw [Product.need]; omega, rfl, rfl⟩
termination_by 4 * budget + 2

theorem sum_reads (budget : Nat) (c : Cursor) :
    (sum budget).Reads c (Sum.Spells budget) EndsSum := by
  rw [sum_eq]
  refine Reads.chain rfl (signed_reads fun d => product_reads budget d)
    (fun k d _ => sum_reads k d) ?_ ?_ fun _ factorsEnded ended => ⟨ended, factorsEnded⟩
  · intro _ _ spelled
    rcases spelled with ⟨sign, _, _, rfl, ⟨d, fits, rfl, rfl⟩, rfl⟩
    exact ⟨.last sign d, fits, rfl, rfl⟩
  · intro k _ _ _ _ op t below spelled known spelledRest
    rcases spelled with ⟨sign, _, _, rfl, ⟨d, fits, rfl, rfl⟩, rfl⟩
    rcases spelledRest with ⟨rest, fitsRest, rfl, rfl⟩
    exact ⟨.more sign d ⟨t, op, known⟩ rest, by rw [Sum.need]; omega, by simp [Sum.tokens], rfl⟩
termination_by 4 * budget + 3

end

/-- Where no parenthesis is next, the sum that is read or begun is bare. -/
theorem sum_reads_bare (budget : Nat) (bare : c.current.value ≠ .leftParen) :
    (sum budget).Reads c
      (fun tokens x => ∃ d : Sum, d.Bare ∧ d.need ≤ budget ∧ d.tokens = tokens ∧ d.value = x)
      EndsSum := by
  have reads := sum_reads budget c
  unfold Reads
  split
  · rename_i x e ended
    obtain ⟨_, passes, ⟨d, fits, rfl, rfl⟩, stop⟩ := reads.ok ended
    have bareSum : d.Bare := fun t first => passes.head first ▸ bare
    exact ⟨d.tokens, passes, ⟨d, bareSum, fits, rfl, rfl⟩, stop⟩
  · rename_i f failed
    obtain ⟨unexpected, closed, tokens, more, passes, x, d, fits, spelled, rfl⟩ :=
      reads.error failed
    refine ⟨unexpected, closed, tokens, ?_⟩
    cases tokens with
    | nil =>
      obtain ⟨d, fits, spelled, same⟩ := Sum.zero_spells budget
      refine ⟨[zero.lexeme.token .number], passes, zero.value, d, ?_, fits, spelled, same⟩
      intro t first
      rw [spelled] at first
      cases first
      exact Token.noConfusion
    | cons first rest =>
      refine ⟨more, passes, d.value, d, ?_, fits, spelled, rfl⟩
      intro t begins
      rw [spelled] at begins
      exact passes.head begins ▸ bare

/-- A value covers the tokens that it was computed from. -/
theorem value_reads {budget : Nat} (chosen : Sum → Prop) {before : Token → Prop}
    (reads : (sum budget).Reads c
      (fun tokens x => ∃ d : Sum, chosen d ∧ d.need ≤ budget ∧ d.tokens = tokens ∧ d.value = x)
      before) :
    (value budget).Reads c
      (fun tokens tree =>
        ∃ d : Sum, chosen d ∧ d.need ≤ budget ∧ d.tokens = tokens ∧ d.tree = tree)
      before := by
  refine Reads.current (reads.bind ?_ ?_)
  · intro _ _ e passes spelled stopped
    rcases spelled with ⟨d, suits, fits, rfl, rfl⟩
    refine Reads.get (Reads.pure ⟨d, suits, fits, by simp, ?_⟩ stopped)
    rw [Sum.tree, extent_of_passes passes d.tokens_ne_nil]
  · intro _ _ spelled
    rcases spelled with ⟨d, suits, fits, rfl, rfl⟩
    exact ⟨[], d.tree, d, suits, fits, by simp, rfl⟩

end Arithmetic

namespace Grammar

open EventQuery.Parser EventQuery.Derivation EventQuery.Arithmetic

variable {c : Cursor}

theorem reference_reads :
    reference.Reads c (fun tokens tree => ∃ r : Reference, r.tokens = tokens ∧ r.tree = tree)
      fun _ => True := by
  apply Reads.expectWord ⟨_, _, anyReference, rfl, rfl⟩
  intro name _ _
  apply Reads.expectToken Token.noConfusion ⟨_, _, ⟨name, .origin, name⟩, rfl, rfl⟩
  intro dot _ _
  apply Reads.expectWord ⟨_, _, ⟨name, dot, name⟩, rfl, rfl⟩
  intro property _ _
  exact Reads.pure ⟨⟨name, dot, property⟩, rfl, rfl⟩ trivial

theorem referenceFirst_reads (budget : Nat) :
    (referenceFirst budget).Reads c (Atom.Spells budget) fun _ => True := by
  obtain ⟨d, fits, -, -⟩ := Sum.zero_spells budget
  refine reference_reads.bind ?_ ?_
  · intro _ _ _ _ spelled _
    rcases spelled with ⟨left, rfl, rfl⟩
    refine Reads.expectComparison ⟨_, _, .referenceFirst left anyComparison d, fits, rfl, rfl⟩
      fun op e _ => ?_
    have right := value_reads (fun _ => True) <| (sum_reads budget e).mono
      (by rintro _ _ ⟨d, whole⟩; exact ⟨d, trivial, whole⟩) fun _ stop => stop
    refine right.bind ?_ ?_
    · intro _ _ _ _ spelled _
      rcases spelled with ⟨right, _, fits, rfl, rfl⟩
      exact Reads.pure ⟨.referenceFirst left op right, fits, by simp [Atom.tokens], rfl⟩ trivial
    · intro _ _ spelled
      rcases spelled with ⟨right, _, fits, rfl, rfl⟩
      exact ⟨[], _, .referenceFirst left op right, fits, by simp [Atom.tokens], rfl⟩
  · intro _ _ spelled
    rcases spelled with ⟨left, rfl, rfl⟩
    exact ⟨_, _, .referenceFirst left anyComparison d, fits, rfl, rfl⟩

theorem valueFirst_reads (budget : Nat) (bare : c.current.value ≠ .leftParen) :
    (valueFirst budget).Reads c (Atom.Spells budget) fun _ => True := by
  refine (value_reads Sum.Bare (sum_reads_bare budget bare)).bind ?_ ?_
  · intro _ _ _ _ spelled _
    rcases spelled with ⟨left, bare, fits, rfl, rfl⟩
    refine Reads.expectComparison
      ⟨_, _, .valueFirst left bare anyComparison anyReference, fits, rfl, rfl⟩ fun op e _ => ?_
    refine reference_reads.bind ?_ ?_
    · intro _ _ _ _ spelled _
      rcases spelled with ⟨right, rfl, rfl⟩
      exact Reads.pure ⟨.valueFirst left bare op right, fits, by simp [Atom.tokens], rfl⟩ trivial
    · intro _ _ spelled
      rcases spelled with ⟨right, rfl, rfl⟩
      exact ⟨[], _, .valueFirst left bare op right, fits, by simp [Atom.tokens], rfl⟩
  · intro _ _ spelled
    rcases spelled with ⟨left, bare, fits, rfl, rfl⟩
    exact ⟨_, _, .valueFirst left bare anyComparison anyReference, fits, rfl, rfl⟩

mutual

/-- What `not` holds is a whole formula, so no connective is left behind it. -/
theorem negation_reads (budget : Nat) (c : Cursor) (negated : c.current.value = .notKeyword) :
    (condition budget).Reads c (Formula.Spells budget) fun t => logical? t = none := by
  rw [condition_eq]
  refine Reads.peek ?_
  rw [negated]
  cases budget with
  | zero =>
    obtain ⟨tokens, tree, spelled⟩ := Formula.exists_spells 0
    exact Reads.fail tokens spelled
  | succ k =>
    have start : c.current = ⟨.notKeyword, c.current.span⟩ := by rw [← negated]
    refine Reads.advance (by simp [negated]) fun d _ => (formula_reads k d).bind ?_ ?_
    · intro _ _ _ _ spelled stopped
      rcases spelled with ⟨inside, fits, rfl, rfl⟩
      refine Reads.pure ⟨.negation c.current.span inside, ?_, ?_, rfl⟩ stopped
      · rw [Formula.need]
        omega
      · rw [start]
        simp [Formula.tokens]
    · intro _ _ spelled
      rcases spelled with ⟨inside, fits, rfl, rfl⟩
      refine ⟨[], _, .negation c.current.span inside, ?_, ?_, rfl⟩
      · rw [Formula.need]
        omega
      · rw [start]
        simp [Formula.tokens]
termination_by 2 * budget

theorem atom_reads (budget : Nat) (c : Cursor) (plain : c.current.value ≠ .notKeyword) :
    (condition budget).Reads c (Atom.Spells budget) fun _ => True := by
  rw [condition_eq]
  refine Reads.peek ?_
  split
  · rename_i negated
    exact absurd negated plain
  · rename_i opening
    refine Reads.enclosed opening (fun k d _ => formula_reads k d) ?_ (Atom.exists_spells budget)
    intro k _ _ closing below spelled
    rcases spelled with ⟨inside, fits, rfl, rfl⟩
    exact ⟨.parens c.current.span inside closing, by rw [Atom.need]; omega, rfl, rfl⟩
  · exact referenceFirst_reads budget
  · rename_i bare _
    exact valueFirst_reads budget bare
termination_by 2 * budget

theorem formula_reads (budget : Nat) (c : Cursor) :
    (formula budget).Reads c (Formula.Spells budget) fun t => logical? t = none := by
  rw [formula_eq]
  by_cases negated : c.current.value = .notKeyword
  · refine (negation_reads budget c negated).bind ?_ ?_
    · intro _ _ d _ spelled stopped
      rcases spelled with ⟨formula, fits, rfl, rfl⟩
      refine Reads.peek ?_
      rw [stopped]
      exact Reads.pure ⟨formula, fits, by simp, rfl⟩ stopped
    · intro _ _ spelled
      rcases spelled with ⟨formula, fits, rfl, rfl⟩
      exact ⟨[], _, formula, fits, by simp, rfl⟩
  · refine Reads.chain rfl (atom_reads budget c negated) (fun k d _ => formula_reads k d) ?_ ?_
      fun _ _ ended => ended
    · intro _ _ spelled
      rcases spelled with ⟨atom, fits, rfl, rfl⟩
      exact ⟨.last atom, fits, rfl, rfl⟩
    · intro k _ _ _ _ op t below spelled known spelledRest
      rcases spelled with ⟨atom, fits, rfl, rfl⟩
      rcases spelledRest with ⟨rest, fitsRest, rfl, rfl⟩
      exact ⟨.more atom ⟨t, op, known⟩ rest, by rw [Formula.need]; omega, rfl, rfl⟩
termination_by 2 * budget + 1

end

theorem binding_reads (budget : Nat) (named : ∃ name, c.current.value = .relation name) :
    binding.Reads c (Term.Spells budget) fun _ => True := by
  obtain ⟨name, same⟩ := named
  have start : c.current = (⟨name, c.current.span⟩ : Located String).token .relation := by
    rw [Located.token, ← same]
  apply Reads.advance (by simp [same])
  intro d _
  rw [start]
  refine Reads.expectToken Token.noConfusion
    ⟨_, _, .binding ⟨name, c.current.span⟩ .origin ⟨"x", .origin⟩, Nat.zero_le _, rfl, rfl⟩
    fun keyword _ _ => ?_
  refine Reads.expectWord
    ⟨_, _, .binding ⟨name, c.current.span⟩ keyword ⟨"x", .origin⟩, Nat.zero_le _, rfl, rfl⟩
    fun bound _ _ => ?_
  exact Reads.pure ⟨.binding ⟨name, c.current.span⟩ keyword bound, Nat.zero_le _, rfl, rfl⟩ trivial

theorem repeated_reads (inner : Query) :
    (repeated inner).Reads c
      (fun tokens tree => ∃ plus, tokens = optionalToken .plus plus ∧ tree = withPlus plus inner)
      fun _ => True := by
  refine Reads.peek ?_
  split
  · rename_i plus
    have start : c.current = ⟨.plus, c.current.span⟩ := by rw [← plus]
    refine Reads.advance (by simp [plus]) fun d _ => Reads.pure ?_ trivial
    exact ⟨some c.current.span, by rw [start]; rfl, rfl⟩
  · exact Reads.pure ⟨none, rfl, rfl⟩ trivial

theorem filtered_reads (budget : Nat) (inner : Query) :
    (filtered budget inner).Reads c
      (fun tokens tree => ∃ filter, filterNeed filter ≤ budget ∧ tokens = filterTokens filter ∧
        tree = withFilter filter inner)
      fun _ => True := by
  refine Reads.peek ?_
  split
  · rename_i keyword
    have start : c.current = ⟨.filterKeyword, c.current.span⟩ := by rw [← keyword]
    refine Reads.advance (by simp [keyword]) fun d _ => (formula_reads budget d).bind ?_ ?_
    · intro _ _ _ _ spelled _
      rcases spelled with ⟨formula, fits, rfl, rfl⟩
      refine Reads.pure ⟨some (c.current.span, formula), fits, ?_, rfl⟩ trivial
      rw [start]
      simp [filterTokens]
    · intro _ _ spelled
      rcases spelled with ⟨formula, fits, rfl, rfl⟩
      refine ⟨[], _, some (c.current.span, formula), fits, ?_, rfl⟩
      rw [start]
      simp [filterTokens]
  · exact Reads.pure ⟨none, Nat.zero_le _, rfl, rfl⟩ trivial

mutual

theorem term_reads (budget : Nat) (c : Cursor) :
    (term budget).Reads c (Term.Spells budget) fun _ => True := by
  rw [term_eq]
  refine Reads.peek ?_
  split
  · rename_i opening
    refine Reads.enclosed opening (fun k d _ => query_reads k d) ?_ (Term.exists_spells budget)
    intro k _ _ closing below spelled
    rcases spelled with ⟨inside, fits, rfl, rfl⟩
    exact ⟨.parens c.current.span inside closing, by rw [Term.need]; omega, rfl, rfl⟩
  · rename_i name named
    exact binding_reads budget ⟨name, named⟩
  · obtain ⟨tokens, tree, spelled⟩ := Term.exists_spells budget
    exact Reads.fail tokens spelled
termination_by 3 * budget

theorem operand_reads (budget : Nat) (c : Cursor) :
    (operand budget).Reads c (Operand.Spells budget) fun _ => True := by
  rw [operand]
  refine (term_reads budget c).bind ?_ ?_
  · intro _ _ _ _ spelled _
    rcases spelled with ⟨term, fits, rfl, rfl⟩
    refine (repeated_reads term.tree).bind ?_ ?_
    · intro _ _ _ _ spelled _
      rcases spelled with ⟨plus, rfl, rfl⟩
      refine (filtered_reads budget _).mono ?_ fun _ stop => stop
      intro _ _ spelled
      rcases spelled with ⟨filter, fitsFilter, rfl, rfl⟩
      exact ⟨.mk term plus filter, Nat.max_le.mpr ⟨fits, fitsFilter⟩, by simp [Operand.tokens], rfl⟩
    · intro _ _ spelled
      rcases spelled with ⟨plus, rfl, rfl⟩
      exact ⟨[], _, .mk term plus none, by simpa [Operand.need, filterNeed] using fits,
        by simp [Operand.tokens, filterTokens], rfl⟩
  · intro _ _ spelled
    rcases spelled with ⟨term, fits, rfl, rfl⟩
    exact ⟨[], _, .mk term none none, by simpa [Operand.need, filterNeed] using fits,
      by simp [Operand.tokens, optionalToken, filterTokens], rfl⟩
termination_by 3 * budget + 1

theorem query_reads (budget : Nat) (c : Cursor) :
    (query budget).Reads c (Relations.Spells budget) fun _ => True := by
  rw [query_eq]
  refine Reads.chain rfl (operand_reads budget c) (fun k d _ => query_reads k d) ?_ ?_
    fun _ _ _ => trivial
  · intro _ _ spelled
    rcases spelled with ⟨operand, fits, rfl, rfl⟩
    exact ⟨.last operand, fits, rfl, rfl⟩
  · intro k _ _ _ _ op t below spelled known spelledRest
    rcases spelled with ⟨operand, fits, rfl, rfl⟩
    rcases spelledRest with ⟨rest, fitsRest, rfl, rfl⟩
    exact ⟨.more operand ⟨t, op, known⟩ rest, by rw [Relations.need]; omega, rfl, rfl⟩
termination_by 3 * budget + 2

end

/-- A whole query is read up to the end of the input. -/
theorem wholeQuery_reads (budget : Nat) (c : Cursor) :
    (wholeQuery budget).Reads c (Relations.Spells budget) fun t => t = .endOfInput := by
  refine (query_reads budget c).bind ?_ ?_
  · intro tokens tree d _ spelled _
    refine Reads.get ?_
    split
    · rename_i ended
      refine Reads.pure (by simpa using spelled) ?_
      have empty : d.ahead = [] := List.isEmpty_iff.mp ended
      simp only [Cursor.current, empty]
    · exact Reads.fail [] (by simpa using spelled)
  · intro tokens tree spelled
    exact ⟨[], tree, by simpa using spelled⟩

end Grammar

end EventQuery
