import EventQuery.Grammar.Session
import EventQuery.Proofs.Grammar.Soundness
import EventQuery.Proofs.Grammar.Unambiguity

set_option autoImplicit false

namespace EventQuery

namespace Parser

variable {α β ω : Type}

/-- From `c`, the run passes tokens, as many as `least` where it ends well, and its faults are unmet
expectations. -/
def Advances (least : Nat) (p : Parser α) (c : Cursor) : Prop :=
  match p c with
  | .ok (_, d) => ∃ tokens, c.Passes tokens d ∧ least ≤ tokens.length
  | .error f => (∃ expected, f.fault = .unexpected expected) ∧ ∃ tokens, c.Passes tokens f.cursor

variable {c : Cursor} {n : Nat}

theorem Advances.ok {p : Parser α} (advances : Advances n p c) {a : α} {d : Cursor}
    (ended : p c = .ok (a, d)) : ∃ tokens, c.Passes tokens d ∧ n ≤ tokens.length := by
  rw [Advances, ended] at advances
  exact advances

theorem Advances.error {p : Parser α} (advances : Advances n p c) {f : Failure}
    (failed : p c = .error f) :
    (∃ expected, f.fault = .unexpected expected) ∧ ∃ tokens, c.Passes tokens f.cursor := by
  rw [Advances, failed] at advances
  exact advances

theorem Advances.pure (a : α) : Advances 0 (Pure.pure a : Parser α) c :=
  ⟨[], rfl, Nat.le_refl 0⟩

theorem Advances.fail (expected : Expectation) : Advances n (Parser.fail expected : Parser α) c :=
  ⟨⟨expected, rfl⟩, [], rfl⟩

/-- The second run goes on behind the tokens that the first has passed. -/
theorem Advances.bind {p : Parser α} {q : α → Parser β} (first : Advances n p c)
    (second : ∀ a d, p c = .ok (a, d) → Advances 0 (q a) d) : Advances n (p >>= q) c := by
  cases ran : p c with
  | error f =>
    rw [Advances, bind_of_error ran]
    exact first.error ran
  | ok result =>
    obtain ⟨a, d⟩ := result
    obtain ⟨front, passes, long⟩ := first.ok ran
    have later := second a d ran
    rw [Advances, bind_of_ok ran]
    cases went : q a d with
    | error f =>
      obtain ⟨unmet, back, passed⟩ := later.error went
      exact ⟨unmet, front ++ back, passes.append passed⟩
    | ok result =>
      obtain ⟨b, e⟩ := result
      obtain ⟨back, passed, _⟩ := later.ok went
      refine ⟨front ++ back, passes.append passed, ?_⟩
      rw [List.length_append]
      omega

theorem Advances.weaken {p : Parser α} (advances : Advances n p c) : Advances 0 p c := by
  unfold Advances
  split
  · rename_i a d ended
    obtain ⟨tokens, passes, _⟩ := advances.ok ended
    exact ⟨tokens, passes, Nat.zero_le _⟩
  · rename_i f failed
    exact advances.error failed

theorem Advances.peek {q : Token → Parser β} (rest : Advances n (q c.current.value) c) :
    Advances n (Parser.peek >>= q) c := rest

theorem Advances.advance (more : c.current.value ≠ .endOfInput) : Advances 1 Parser.advance c := by
  obtain ⟨d, stepped, passes⟩ := Cursor.exists_next more
  rw [Advances, advance_of_next stepped]
  exact ⟨[c.current], passes, Nat.le_refl 1⟩

theorem Advances.expect {accepted : Token → Bool} {expected : Expectation}
    (inside : accepted .endOfInput = false) : Advances 1 (Parser.expect accepted expected) c := by
  apply Advances.peek
  split
  · rename_i fits
    apply Advances.advance
    intro ended
    rw [ended, inside] at fits
    cases fits
  · exact Advances.fail expected

theorem Advances.nested {budget : Nat} {production : (k : Nat) → k < budget → Parser α}
    (deeper : ∀ k below, Advances n (production k below) c) :
    Advances n (Parser.nested budget production) c := by
  cases budget with
  | zero => exact Advances.fail .shallower
  | succ k => exact deeper k (Nat.lt_succ_self k)

theorem Advances.keepingOpen {p : Parser α} (advances : Advances n p c) :
    Advances n (Parser.keepingOpen p) c := by
  cases ran : p c with
  | ok result =>
    rw [Advances, keepingOpen_of_ok ran]
    exact advances.ok ran
  | error f =>
    obtain ⟨unmet, passed⟩ := advances.error ran
    rw [Advances, keepingOpen_of_error ran]
    exact ⟨unmet, passed⟩

section Chains

variable {operator : Token → Option ω} {combine : ω → α → α → α}
  (inside : operator .endOfInput = none)

include inside

/-- What the operator table knows is not the end of the input. -/
theorem current_ne_end {op : ω} (found : operator c.current.value = some op) :
    c.current.value ≠ .endOfInput := by
  intro ended
  rw [ended, inside] at found
  cases found

/-- A link of a chain: the operator, its operand, and what is made of that. -/
theorem Advances.link {op : ω} {operand : Parser α} {q : α → Parser β}
    (found : operator c.current.value = some op) (operands : ∀ d, Advances 0 operand d)
    (rest : ∀ next e, Advances 0 (q next) e) :
    Advances 0 (do
      let _ ← Parser.advance
      let next ← operand
      q next) c := by
  have step : Advances 1 Parser.advance c := Advances.advance (current_ne_end inside found)
  apply step.weaken.bind
  intro _ d _
  apply (operands d).bind
  intro next e _
  exact rest next e

theorem Advances.climbRight {budget : Nat} :
    ∀ {operand : (k : Nat) → k < budget → Parser α} {first : α} {c : Cursor},
      (∀ k below d, Advances 0 (operand k below) d) →
      Advances 0 (Parser.climbRight operator combine budget operand first) c := by
  induction budget with
  | zero =>
    intro operand first c _
    apply Advances.peek
    split
    · exact Advances.pure first
    · exact Advances.fail .shallower
  | succ k ih =>
    intro operand first c operands
    apply Advances.peek
    split
    · exact Advances.pure first
    · rename_i op found
      apply Advances.link inside found (operands k (Nat.lt_succ_self k))
      intro next e
      apply (ih fun j below => operands j (Nat.lt_succ_of_lt below)).bind
      intro rest f _
      exact Advances.pure (combine op first rest)

theorem Advances.climbLeft {budget : Nat} :
    ∀ {operand : (k : Nat) → k < budget → Parser α} {first : α} {c : Cursor},
      (∀ k below d, Advances 0 (operand k below) d) →
      Advances 0 (Parser.climbLeft operator combine budget operand first) c := by
  induction budget with
  | zero =>
    intro operand first c _
    apply Advances.peek
    split
    · exact Advances.pure first
    · exact Advances.fail .shallower
  | succ k ih =>
    intro operand first c operands
    apply Advances.peek
    split
    · exact Advances.pure first
    · rename_i op found
      apply Advances.keepingOpen
      apply Advances.link inside found (operands k (Nat.lt_succ_self k))
      intro next e
      exact ih fun j below => operands j (Nat.lt_succ_of_lt below)

theorem Advances.climb {associativity : Associativity} {budget : Nat}
    {operand : (k : Nat) → k < budget → Parser α} {first : α}
    (operands : ∀ k below d, Advances 0 (operand k below) d) :
    Advances 0 (Parser.climb associativity operator combine budget operand first) c := by
  cases associativity with
  | left => exact Advances.climbLeft inside operands
  | right => exact Advances.climbRight inside operands

end Chains

/-- What is read up to a phrase that has tokens advances. -/
theorem Reads.advances {p : Parser α} {phrase : List (Located Token) → α → Prop}
    {before : Token → Prop} (reads : p.Reads c phrase before)
    (present : ∀ tokens a, phrase tokens a → tokens ≠ []) : Advances 1 p c := by
  unfold Advances
  split
  · rename_i a d ended
    obtain ⟨tokens, passes, holds, _⟩ := reads.ok ended
    exact ⟨tokens, passes, List.length_pos_iff.mpr (present tokens a holds)⟩
  · rename_i f failed
    obtain ⟨unmet, _, tokens, _, passes, _⟩ := reads.error failed
    exact ⟨unmet, tokens, passes⟩

end Parser

namespace Arithmetic

open EventQuery.Parser

theorem signed_advances {allowed : Bool} {operand : Parser Float} {c : Cursor}
    (operands : ∀ d, Advances 1 operand d) : Advances 1 (signed allowed operand) c := by
  apply Advances.peek
  split
  · rename_i negated
    have more : c.current.value ≠ .endOfInput := by
      intro ended
      simp [ended] at negated
    apply (Advances.advance more).bind
    intro _ d _
    apply (operands d).weaken.bind
    intro x e _
    exact Advances.pure (-x)
  · exact operands c

theorem number_advances {lexeme : String} {c : Cursor} (more : c.current.value ≠ .endOfInput) :
    Advances 1 (number lexeme) c := by
  unfold number
  split
  · exact Advances.fail .number
  · rename_i x _
    apply (Advances.advance more).bind
    intro _ d _
    exact Advances.pure x

/-- Over any levels, by induction on the budget and on the levels that are left. Inside parentheses
all levels start anew, with a smaller budget. -/
theorem expression_advances (levels : List Level) (budget : Nat) :
    ∀ (rest : List Level) (c : Cursor), Advances 1 (expression levels budget rest) c := by
  induction budget using Nat.strongRecOn with
  | ind budget deeper =>
    intro rest
    induction rest with
    | nil =>
      intro c
      rw [expression]
      apply Advances.peek
      split
      · rename_i opening
        have more : c.current.value ≠ .endOfInput := by simp [opening]
        apply Advances.nested
        intro k below
        apply (Advances.advance more).bind
        intro _ d _
        apply (deeper k below levels d).weaken.bind
        intro x e _
        have closing : Advances 1 (expectToken .rightParen .closing) e := Advances.expect rfl
        apply closing.weaken.bind
        intro _ f _
        exact Advances.pure x
      · rename_i lexeme here
        exact number_advances (by simp [here])
      · exact Advances.fail .operand
    | cons level tighter ih =>
      intro c
      rw [expression]
      apply (signed_advances ih).bind
      intro first d _
      apply Advances.climb rfl
      intro k below e
      exact (signed_advances (deeper k below tighter)).weaken

end Arithmetic

namespace Derivation

theorem Atom.tokens_ne_nil (a : Atom) : a.tokens ≠ [] := by
  obtain ⟨t, rest, spelled, _⟩ := a.tokens_eq_cons
  rw [spelled]
  exact List.cons_ne_nil t rest

theorem Formula.tokens_ne_nil (f : Formula) : f.tokens ≠ [] := by
  cases f with
  | negation keyword inside => exact List.cons_ne_nil _ _
  | last only => exact only.tokens_ne_nil
  | more first op rest => exact List.append_ne_nil_of_left_ne_nil first.tokens_ne_nil _

theorem Term.tokens_ne_nil (t : Term) : t.tokens ≠ [] := by
  cases t with
  | parens opening inside closing => exact List.cons_ne_nil _ _
  | binding relation keyword name => exact List.cons_ne_nil _ _

theorem Operand.tokens_ne_nil (o : Operand) : o.tokens ≠ [] := by
  obtain ⟨term, plus, filter⟩ := o
  have front := List.append_ne_nil_of_left_ne_nil term.tokens_ne_nil (optionalToken .plus plus)
  exact List.append_ne_nil_of_left_ne_nil front (filterTokens filter)

theorem Relations.tokens_ne_nil (r : Relations) : r.tokens ≠ [] := by
  cases r with
  | last only => exact only.tokens_ne_nil
  | more first op rest => exact List.append_ne_nil_of_left_ne_nil first.tokens_ne_nil _

end Derivation

section Productions

open EventQuery.Parser

variable {budget : Nat} {c : Cursor}

theorem Arithmetic.value_advances : Advances 1 (value budget) c := by
  have computed : Advances 1 (evaluate levels budget) c :=
    expression_advances levels budget levels c
  have covered : Advances 1 (evaluate levels budget >>= fun x => do
      let d ← get
      return Query.ofValue x (c.current.span.merge d.last)) c := by
    apply computed.bind
    intro x d _
    exact ⟨[], rfl, Nat.le_refl 0⟩
  exact covered

namespace Grammar

theorem reference_advances : Advances 1 reference c := by
  apply reference_reads.advances
  rintro _ _ ⟨r, rfl, rfl⟩
  exact List.cons_ne_nil _ _

theorem formula_advances : Advances 1 (formula budget) c := by
  apply (formula_reads budget c).advances
  rintro _ _ ⟨f, _, rfl, rfl⟩
  exact f.tokens_ne_nil

theorem term_advances : Advances 1 (term budget) c := by
  apply (term_reads budget c).advances
  rintro _ _ ⟨t, _, rfl, rfl⟩
  exact t.tokens_ne_nil

theorem operand_advances : Advances 1 (operand budget) c := by
  apply (operand_reads budget c).advances
  rintro _ _ ⟨o, _, rfl, rfl⟩
  exact o.tokens_ne_nil

theorem query_advances : Advances 1 (query budget) c := by
  apply (query_reads budget c).advances
  rintro _ _ ⟨r, _, rfl, rfl⟩
  exact r.tokens_ne_nil

theorem wholeQuery_advances : Advances 1 (wholeQuery budget) c := by
  apply (wholeQuery_reads budget c).advances
  rintro _ _ ⟨r, _, rfl, rfl⟩
  exact r.tokens_ne_nil

end Grammar

end Productions

/-- The cursor is at a place of the stream, behind as many of its tokens as were passed and no
further than at the end of the input. -/
structure Cursor.On (c : Cursor) (stream : TokenStream) : Prop where
  within : c.passed ≤ stream.content.length
  ahead : c.ahead = stream.content.drop c.passed
  finish : c.finish = stream.finish

theorem Cursor.on_ofStream (stream : TokenStream) : (ofStream stream).On stream :=
  ⟨Nat.zero_le _, rfl, rfl⟩

/-- Passing tokens never leaves the stream. -/
theorem Cursor.On.passes {c d : Cursor} {stream : TokenStream} {tokens : List (Located Token)}
    (on : c.On stream) (passes : c.Passes tokens d) : d.On stream := by
  have count : d.passed = c.passed + tokens.length := passes.passed
  have row : stream.content.drop c.passed = tokens ++ d.ahead := by
    rw [← on.ahead, passes.ahead]
  have length := congrArg List.length row
  rw [List.length_drop, List.length_append] at length
  refine ⟨?within, ?ahead, passes.finish.trans on.finish⟩
  case within =>
    have within := on.within
    omega
  case ahead => rw [count, ← List.drop_drop, row, List.drop_left]

/-- What is passed stands in the stream. -/
theorem Cursor.On.mem_tokens {c d : Cursor} {stream : TokenStream} {tokens : List (Located Token)}
    (on : c.On stream) (passes : c.Passes tokens d) {t : Located Token} (member : t ∈ tokens) :
    t ∈ stream.tokens := by
  have row : stream.content.drop c.passed = tokens ++ d.ahead := by
    rw [← on.ahead, passes.ahead]
  have behind : t ∈ stream.content.drop c.passed := by
    rw [row]
    exact List.mem_append_left _ member
  have kept : t ∈ significantTokens stream.tokens := by
    rw [stream.significant_eq]
    exact List.mem_append_left _ (List.mem_of_mem_drop behind)
  exact (List.mem_filter.mp kept).1

/-- The current token is the one with as many tokens before it as were passed. -/
theorem Cursor.On.significant_getElem? {c : Cursor} {stream : TokenStream} (on : c.On stream) :
    stream.significant[c.passed]? = some c.current := by
  have within := on.within
  have row : c.ahead = stream.content.drop c.passed := on.ahead
  have found : stream.significant[c.passed]? =
      (c.ahead ++ [(⟨.endOfInput, c.finish⟩ : Located Token)])[0]? := by
    rw [row, on.finish, TokenStream.significant, ← List.drop_append_of_le_length within,
      List.getElem?_drop, Nat.add_zero]
  rw [found, current]
  cases c.ahead <;> rfl

/-- What a run from `s` comes to within a stream: the cursor stays in the stream and does not go
back, it goes on where the run ends well, and no fault is an attempt to pass the end of the input. -/
structure Session.Proceeds {α : Type} (s : Session) (stream : TokenStream)
    (outcome : Except SyntaxError α × Session) : Prop where
  within : outcome.2.cursor.On stream
  forward : s.cursor.passed ≤ outcome.2.cursor.passed
  onward : ∀ a, outcome.1 = .ok a → s.cursor.passed < outcome.2.cursor.passed
  unspent : ∀ e position, outcome.1 = .error e → e.fault ≠ .overrun position

theorem Session.run_of_ok {α : Type} {s : Session} {parser : Nat → Parser α} {a : α} {d : Cursor}
    (ran : parser (maxNesting - s.depth) s.cursor = .ok (a, d)) :
    s.run parser = (.ok a, { s with cursor := d }) := by
  simp only [run, ran]

theorem Session.run_of_error {α : Type} {s : Session} {parser : Nat → Parser α} {f : Failure}
    (ran : parser (maxNesting - s.depth) s.cursor = .error f) :
    s.run parser = (.error ⟨s.sourceName, f.fault, f.cursor.current⟩,
      { s with cursor := f.cursor, depth := s.depth + f.opened }) := by
  simp only [run, ran]

theorem Session.run_proceeds {α : Type} {s : Session} {stream : TokenStream}
    {parser : Nat → Parser α} (on : s.cursor.On stream)
    (advances : Parser.Advances 1 (parser (maxNesting - s.depth)) s.cursor) :
    s.Proceeds stream (s.run parser) := by
  cases ran : parser (maxNesting - s.depth) s.cursor with
  | ok result =>
    obtain ⟨a, d⟩ := result
    obtain ⟨tokens, passes, long⟩ := advances.ok ran
    have count : d.passed = s.cursor.passed + tokens.length := passes.passed
    rw [run_of_ok ran]
    refine ⟨on.passes passes, ?_, fun _ _ => ?_, fun _ _ failed => by cases failed⟩
    · show s.cursor.passed ≤ d.passed
      omega
    · show s.cursor.passed < d.passed
      omega
  | error f =>
    obtain ⟨⟨expected, unmet⟩, tokens, passes⟩ := advances.error ran
    have count : f.cursor.passed = s.cursor.passed + tokens.length := passes.passed
    rw [run_of_error ran]
    refine ⟨on.passes passes, ?_, (fun _ ended => by cases ended), ?_⟩
    · show s.cursor.passed ≤ f.cursor.passed
      omega
    · rintro _ position ⟨⟩
      rw [unmet]
      exact Fault.noConfusion

/-- From every place in a stream and at every depth, every production ends within the stream,
further on or where it began, and never passes the end of the input. One that ends well has passed a
token. For arithmetic this holds over any list of levels. -/
theorem productions_proceed (stream : TokenStream) (s : Session) (on : s.cursor.On stream) :
    s.Proceeds stream s.parse ∧
    s.Proceeds stream (s.run Grammar.query) ∧
    s.Proceeds stream (s.run Grammar.term) ∧
    s.Proceeds stream (s.run Grammar.operand) ∧
    s.Proceeds stream (s.run Grammar.formula) ∧
    s.Proceeds stream (s.run fun _ => Grammar.reference) ∧
    s.Proceeds stream (s.run Arithmetic.value) ∧
    ∀ levels, s.Proceeds stream (s.run (Arithmetic.evaluate levels)) := by
  have whole : Session.Proceeds { s with depth := 0 } stream s.parse :=
    Session.run_proceeds on Grammar.wholeQuery_advances
  refine ⟨⟨whole.within, whole.forward, whole.onward, whole.unspent⟩,
    Session.run_proceeds on Grammar.query_advances, Session.run_proceeds on Grammar.term_advances,
    Session.run_proceeds on Grammar.operand_advances,
    Session.run_proceeds on Grammar.formula_advances,
    Session.run_proceeds on Grammar.reference_advances,
    Session.run_proceeds on Arithmetic.value_advances, fun levels => ?_⟩
  exact Session.run_proceeds on (Arithmetic.expression_advances levels _ levels s.cursor)

/-- To a table with a fallback the closing parenthesis is an operator like any other. -/
def closedSum : TokenStream where
  tokens := [⟨.number "1", .origin⟩, ⟨.space, .origin⟩, ⟨.rightParen, .origin⟩,
    ⟨.endOfInput, .origin⟩]
  source := none
  content := [⟨.number "1", .origin⟩, ⟨.rightParen, .origin⟩]
  finish := .origin
  significant_eq := by decide
  content_ne_end := by decide

/-- A single level where every symbol stands for an addition, and chains group to the left. -/
def catchAll : List Arithmetic.Level := [⟨⟨[], some .add, .left⟩, true, true⟩]

theorem closedSum_proceeds :
    (Session.mk "q" (.ofStream closedSum) 127).cursor.On closedSum ∧
      (Session.mk "q" (.ofStream closedSum) 127).Proceeds closedSum
        ((Session.mk "q" (.ofStream closedSum) 127).run (Arithmetic.evaluate catchAll)) := by
  have on : (Session.mk "q" (.ofStream closedSum) 127).cursor.On closedSum :=
    Cursor.on_ofStream closedSum
  obtain ⟨_, _, _, _, _, _, _, arithmetic⟩ := productions_proceed closedSum _ on
  exact ⟨on, arithmetic catchAll⟩

end EventQuery
