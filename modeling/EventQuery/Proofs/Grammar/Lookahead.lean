import EventQuery.Proofs.Grammar.Reading
import EventQuery.Proofs.Query.Placeless

/- How far a parser looks. A run sees the values of the tokens that it passes and of the one
behind them, and nothing else of what lies ahead. -/

set_option autoImplicit false

namespace EventQuery

namespace Cursor

theorem Passes.unique {c d : Cursor} {tokens tokens' : List (Located Token)}
    (passes : c.Passes tokens d) (passes' : c.Passes tokens' d) : tokens = tokens' := by
  have same : tokens ++ d.ahead = tokens' ++ d.ahead := by rw [← passes.ahead, passes'.ahead]
  exact List.append_cancel_right same

/-- Two cursors see the same values on the next `n + 1` tokens, or on all of fewer tokens. -/
def Alike (n : Nat) (c c' : Cursor) : Prop :=
  (values c.ahead).take (n + 1) = (values c'.ahead).take (n + 1)

theorem Alike.refl (n : Nat) (c : Cursor) : c.Alike n c := rfl

theorem Alike.mono {m n : Nat} {c c' : Cursor} (alike : c.Alike n c') (le : m ≤ n) :
    c.Alike m c' := by
  have shorter := congrArg (List.take (m + 1)) alike
  rwa [List.take_take, List.take_take, Nat.min_eq_left (by omega)] at shorter

theorem Alike.current {n : Nat} {c c' : Cursor} (alike : c.Alike n c') :
    c.current.value = c'.current.value := by
  unfold Alike values at alike
  unfold Cursor.current
  cases here : c.ahead <;> cases there : c'.ahead <;> simp_all

theorem Alike.atEnd {n : Nat} {c c' : Cursor} (alike : c.Alike n c') : c.atEnd = c'.atEnd := by
  unfold Alike values at alike
  unfold Cursor.atEnd
  cases here : c.ahead <;> cases there : c'.ahead <;> simp_all

/-- Behind tokens with the same values, as much is the same as before, less those tokens. -/
theorem Alike.behind {n : Nat} {c d c' d' : Cursor} {tokens tokens' : List (Located Token)}
    (alike : c.Alike (tokens.length + n) c') (passes : c.Passes tokens d)
    (passes' : c'.Passes tokens' d') (same : values tokens = values tokens') : d.Alike n d' := by
  have long : (values tokens).length = tokens.length := length_values tokens
  unfold Alike at alike ⊢
  rw [passes.ahead, passes'.ahead, values_append, values_append, ← same, ← long, Nat.add_assoc,
    List.take_length_add_append, List.take_length_add_append] at alike
  exact List.append_cancel_left alike

/-- A cursor comes to another by passing tokens of the same values. -/
def PassesLike (c : Cursor) (tokens : List (Located Token)) (d : Cursor) : Prop :=
  ∃ tokens', c.Passes tokens' d ∧ values tokens = values tokens'

theorem PassesLike.refl (c : Cursor) : c.PassesLike [] c := ⟨[], rfl, rfl⟩

theorem PassesLike.append {c d e : Cursor} {front back : List (Located Token)}
    (first : c.PassesLike front d) (second : d.PassesLike back e) :
    c.PassesLike (front ++ back) e := by
  obtain ⟨front', passes, same⟩ := first
  obtain ⟨back', passes', same'⟩ := second
  exact ⟨front' ++ back', passes.append passes', by rw [values_append, values_append, same, same']⟩

end Cursor

namespace Parser

variable {α α' β β' ω : Type}

/-- Where a run has come to, well or not. -/
def reach : Except Failure (α × Cursor) → Cursor
  | .ok (_, d) => d
  | .error f => f.cursor

/-- Both runs end well with results that are related, or both fail with the same fault. -/
def Corresponds (R : α → α' → Prop) :
    Except Failure (α × Cursor) → Except Failure (α' × Cursor) → Prop
  | .ok (a, _), .ok (a', _) => R a a'
  | .error f, .error f' => f.fault = f'.fault ∧ f.opened = f'.opened
  | _, _ => False

/-- From every cursor that looks like `c` as far as `p` looks from there, the second parser does
what `p` does from `c`. -/
def Retraces (R : α → α' → Prop) (p : Parser α) (p' : Parser α') (c : Cursor) : Prop :=
  ∃ tokens, c.Passes tokens (reach (p c)) ∧ ∀ c', c.Alike tokens.length c' →
    Corresponds R (p c) (p' c') ∧ c'.PassesLike tokens (reach (p' c'))

variable {c : Cursor} {R : α → α' → Prop} {S : β → β' → Prop}

theorem Retraces.pure {a : α} {a' : α'} (related : R a a') :
    Retraces R (Pure.pure a : Parser α) (Pure.pure a') c :=
  ⟨[], rfl, fun c' _ => ⟨related, .refl c'⟩⟩

theorem Retraces.fail {expected : Expectation} :
    Retraces R (Parser.fail expected : Parser α) (Parser.fail expected) c :=
  ⟨[], rfl, fun c' _ => ⟨⟨rfl, rfl⟩, .refl c'⟩⟩

theorem Retraces.ok {p : Parser α} {p' : Parser α'} (retraces : Retraces R p p' c) {a : α}
    {d : Cursor} (ended : p c = .ok (a, d)) :
    ∃ tokens, c.Passes tokens d ∧ ∀ c', c.Alike tokens.length c' →
      ∃ a' d', p' c' = .ok (a', d') ∧ R a a' ∧ c'.PassesLike tokens d' := by
  obtain ⟨tokens, passes, same⟩ := retraces
  rw [ended] at passes same
  refine ⟨tokens, passes, fun c' alike => ?_⟩
  obtain ⟨related, passes'⟩ := same c' alike
  cases ran : p' c' with
  | ok result =>
    rw [ran] at related passes'
    exact ⟨result.1, result.2, rfl, related, passes'⟩
  | error f =>
    rw [ran] at related
    exact related.elim

theorem Retraces.error {p : Parser α} {p' : Parser α'} (retraces : Retraces R p p' c) {f : Failure}
    (failed : p c = .error f) :
    ∃ tokens, c.Passes tokens f.cursor ∧ ∀ c', c.Alike tokens.length c' →
      ∃ f', p' c' = .error f' ∧ f.fault = f'.fault ∧ f.opened = f'.opened ∧
        c'.PassesLike tokens f'.cursor := by
  obtain ⟨tokens, passes, same⟩ := retraces
  rw [failed] at passes same
  refine ⟨tokens, passes, fun c' alike => ?_⟩
  obtain ⟨related, passes'⟩ := same c' alike
  cases ran : p' c' with
  | ok result =>
    rw [ran] at related
    exact related.elim
  | error f' =>
    rw [ran] at related passes'
    exact ⟨f', rfl, related.1, related.2, passes'⟩

/-- The second run goes on from where the first has come to, and is followed there by a run that
goes on from the result of the other. -/
theorem Retraces.bind {p : Parser α} {p' : Parser α'} {q : α → Parser β} {q' : α' → Parser β'}
    (first : Retraces R p p' c)
    (second : ∀ a a' d, p c = .ok (a, d) → R a a' → Retraces S (q a) (q' a') d) :
    Retraces S (p >>= q) (p' >>= q') c := by
  cases ran : p c with
  | error f =>
    obtain ⟨tokens, passes, same⟩ := first.error ran
    refine ⟨tokens, by rwa [bind_of_error ran], fun c' alike => ?_⟩
    obtain ⟨f', failed, fault, opened, passes'⟩ := same c' alike
    rw [bind_of_error ran, bind_of_error failed]
    exact ⟨⟨fault, opened⟩, passes'⟩
  | ok result =>
    obtain ⟨a, d⟩ := result
    obtain ⟨front, passes, same⟩ := first.ok ran
    -- the run behind `p` passes the same tokens whichever run follows it
    obtain ⟨a₀, _, _, related₀, _⟩ := same c (.refl _ c)
    obtain ⟨back, passesBack, _⟩ := second a a₀ d ran related₀
    refine ⟨front ++ back, by rw [bind_of_ok ran]; exact passes.append passesBack, ?_⟩
    intro c' alike
    rw [List.length_append] at alike
    obtain ⟨a', d', ended, related, front', passes', values'⟩ :=
      same c' (alike.mono (Nat.le_add_right _ _))
    obtain ⟨back', passesBack', sameBack⟩ := second a a' d ran related
    cases passesBack.unique passesBack'
    obtain ⟨corresponds, passed⟩ := sameBack d' (alike.behind passes passes' values')
    rw [bind_of_ok ran, bind_of_ok ended]
    exact ⟨corresponds, Cursor.PassesLike.append ⟨front', passes', values'⟩ passed⟩

theorem Retraces.peek {q : Token → Parser β} {q' : Token → Parser β'}
    (rest : ∀ t, c.current.value = t → Retraces S (q t) (q' t) c) :
    Retraces S (Parser.peek >>= q) (Parser.peek >>= q') c := by
  have first : Retraces (fun t t' => c.current.value = t ∧ t = t') Parser.peek Parser.peek c :=
    ⟨[], rfl, fun c' alike => ⟨⟨rfl, alike.current⟩, .refl c'⟩⟩
  refine first.bind ?_
  rintro t t' d ⟨⟩ ⟨here, rfl⟩
  exact rest _ here

theorem Retraces.current : Retraces (fun t t' => t.value = t'.value) Parser.current Parser.current c :=
  ⟨[], rfl, fun c' alike => ⟨alike.current, .refl c'⟩⟩

theorem Retraces.get : Retraces (Cursor.Alike 0) (get : Parser Cursor) get c :=
  ⟨[], rfl, fun c' alike => ⟨alike, .refl c'⟩⟩

theorem Retraces.advance (more : c.current.value ≠ .endOfInput) :
    Retraces (fun t t' => t.value = t'.value) Parser.advance Parser.advance c := by
  obtain ⟨d, stepped, passes⟩ := Cursor.exists_next more
  refine ⟨[c.current], by rwa [advance_of_next stepped], fun c' alike => ?_⟩
  have more' : c'.current.value ≠ .endOfInput := by rwa [← alike.current]
  obtain ⟨d', stepped', passes'⟩ := Cursor.exists_next more'
  rw [advance_of_next stepped, advance_of_next stepped']
  exact ⟨alike.current, [c'.current], passes', congrArg (fun t => [t]) alike.current⟩

theorem Retraces.expect {accepted : Token → Bool} {expected : Expectation}
    (inside : accepted .endOfInput = false) :
    Retraces (fun t t' => t.value = t'.value) (Parser.expect accepted expected)
      (Parser.expect accepted expected) c := by
  apply Retraces.peek
  intro t here
  by_cases fits : accepted t = true
  · rw [if_pos fits]
    apply Retraces.advance
    intro ended
    rw [← here, ended, inside] at fits
    cases fits
  · rw [if_neg fits]
    exact Retraces.fail

theorem Retraces.nested {budget : Nat} {production : (k : Nat) → k < budget → Parser α}
    {production' : (k : Nat) → k < budget → Parser α'}
    (deeper : ∀ k below, Retraces R (production k below) (production' k below) c) :
    Retraces R (Parser.nested budget production) (Parser.nested budget production') c := by
  cases budget with
  | zero => exact Retraces.fail
  | succ k => exact deeper k (Nat.lt_succ_self k)

theorem Retraces.keepingOpen {p : Parser α} {p' : Parser α'} (retraces : Retraces R p p' c) :
    Retraces R (Parser.keepingOpen p) (Parser.keepingOpen p') c := by
  cases ran : p c with
  | ok result =>
    obtain ⟨tokens, passes, same⟩ := retraces.ok ran
    rw [Retraces, keepingOpen_of_ok ran]
    refine ⟨tokens, passes, fun c' alike => ?_⟩
    obtain ⟨a', d', ended, related, passes'⟩ := same c' alike
    rw [keepingOpen_of_ok ended]
    exact ⟨related, passes'⟩
  | error f =>
    obtain ⟨tokens, passes, same⟩ := retraces.error ran
    rw [Retraces, keepingOpen_of_error ran]
    refine ⟨tokens, passes, fun c' alike => ?_⟩
    obtain ⟨f', failed, fault, opened, passes'⟩ := same c' alike
    rw [keepingOpen_of_error failed]
    exact ⟨⟨fault, congrArg (· + 1) opened⟩, passes'⟩

section Chains

variable {operator : Token → Option ω} {combine : ω → α → α → α} {combine' : ω → α' → α' → α'}
  (inside : operator .endOfInput = none)
  (combined : ∀ op a a' b b', R a a' → R b b' → R (combine op a b) (combine' op a' b'))

include inside combined

theorem Retraces.climbRight {budget : Nat} :
    ∀ {operand : (k : Nat) → k < budget → Parser α}
      {operand' : (k : Nat) → k < budget → Parser α'} {first : α} {first' : α'} {c : Cursor},
      (∀ k below d, Retraces R (operand k below) (operand' k below) d) → R first first' →
      Retraces R (Parser.climbRight operator combine budget operand first)
        (Parser.climbRight operator combine' budget operand' first') c := by
  induction budget with
  | zero =>
    intro operand operand' first first' c _ related
    apply Retraces.peek
    intro t _
    cases operator t with
    | none => exact Retraces.pure related
    | some op => exact Retraces.fail
  | succ k ih =>
    intro operand operand' first first' c operands related
    apply Retraces.peek
    intro t here
    cases found : operator t with
    | none => exact Retraces.pure related
    | some op =>
      have more : c.current.value ≠ .endOfInput := by
        intro ended
        rw [← here, ended, inside] at found
        cases found
      apply (Retraces.advance more).bind
      intro _ _ d _ _
      apply (operands k _ d).bind
      intro next next' e _ relatedNext
      refine (ih (fun k h e => operands k _ e) relatedNext).bind fun rest rest' f _ relatedRest => ?_
      exact Retraces.pure (combined op _ _ _ _ related relatedRest)

theorem Retraces.climbLeft {budget : Nat} :
    ∀ {operand : (k : Nat) → k < budget → Parser α}
      {operand' : (k : Nat) → k < budget → Parser α'} {first : α} {first' : α'} {c : Cursor},
      (∀ k below d, Retraces R (operand k below) (operand' k below) d) → R first first' →
      Retraces R (Parser.climbLeft operator combine budget operand first)
        (Parser.climbLeft operator combine' budget operand' first') c := by
  induction budget with
  | zero =>
    intro operand operand' first first' c _ related
    apply Retraces.peek
    intro t _
    cases operator t with
    | none => exact Retraces.pure related
    | some op => exact Retraces.fail
  | succ k ih =>
    intro operand operand' first first' c operands related
    apply Retraces.peek
    intro t here
    cases found : operator t with
    | none => exact Retraces.pure related
    | some op =>
      have more : c.current.value ≠ .endOfInput := by
        intro ended
        rw [← here, ended, inside] at found
        cases found
      refine Retraces.keepingOpen ?_
      apply (Retraces.advance more).bind
      intro _ _ d _ _
      apply (operands k _ d).bind
      intro next next' e _ relatedNext
      exact ih (fun k h e => operands k _ e) (combined op _ _ _ _ related relatedNext)

theorem Retraces.climb {associativity : Associativity} {budget : Nat}
    {operand : (k : Nat) → k < budget → Parser α} {operand' : (k : Nat) → k < budget → Parser α'}
    {first : α} {first' : α'}
    (operands : ∀ k below d, Retraces R (operand k below) (operand' k below) d)
    (related : R first first') :
    Retraces R (Parser.climb associativity operator combine budget operand first)
      (Parser.climb associativity operator combine' budget operand' first') c := by
  cases associativity with
  | left => exact Retraces.climbLeft inside combined operands related
  | right => exact Retraces.climbRight inside combined operands related

end Chains

end Parser

end EventQuery
