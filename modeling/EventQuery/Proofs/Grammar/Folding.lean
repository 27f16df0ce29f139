import EventQuery.Grammar.Session
import EventQuery.Proofs.Grammar.Soundness
import EventQuery.Proofs.Grammar.Completeness
import EventQuery.Proofs.Grammar.Unambiguity

set_option autoImplicit false

namespace EventQuery

open EventQuery.Derivation

/-- The operators of arithmetic, and no other tokens, go on from a sum. -/
theorem Derivation.endsSum_iff (t : Token) :
    EndsSum t ↔ t ≠ .plus ∧ t ≠ .minus ∧ t ≠ .times ∧ t ≠ .divide := by
  cases t <;> simp [EndsSum, additive?, multiplicative?]

theorem Cursor.current_of_head {c : Cursor} {t : Located Token} (first : t ∈ c.ahead.head?) :
    c.current = t := by
  obtain ⟨passed, ahead, finish, last⟩ := c
  cases ahead with
  | nil => cases first
  | cons u rest =>
    cases first
    rfl

theorem Cursor.before_ahead {ends : Token → Prop} {c : Cursor} (stop : ends c.current.value) :
    Before ends c.ahead := by
  intro t first
  rwa [← Cursor.current_of_head first]

namespace Session

variable {α : Type}

/-- A run that ends well moves the cursor and leaves all else as it is. -/
theorem run_eq_ok_iff {s after : Session} {parser : Nat → Parser α} {a : α} :
    s.run parser = (.ok a, after) ↔
      ∃ c, parser (maxNesting - s.depth) s.cursor = .ok (a, c) ∧ after = { s with cursor := c } := by
  unfold run
  cases parser (maxNesting - s.depth) s.cursor with
  | ok result =>
    obtain ⟨b, d⟩ := result
    constructor
    · rintro ⟨⟩
      exact ⟨d, rfl, rfl⟩
    · intro found
      obtain ⟨c, ⟨⟩, rfl⟩ := found
      rfl
  | error f =>
    constructor
    · rintro ⟨⟩
    · intro found
      obtain ⟨c, ⟨⟩, _⟩ := found

/-- From one session to another the tokens of a sum are passed. The sum is as long as it can be, and
it needs no more levels of nesting than are left. -/
structure PassesSum (s : Session) (d : Sum) (after : Session) : Prop where
  passes : s.cursor.Passes d.tokens after.cursor
  ends : after.cursor.current.value ≠ .plus ∧ after.cursor.current.value ≠ .minus ∧
    after.cursor.current.value ≠ .times ∧ after.cursor.current.value ≠ .divide
  fits : d.need ≤ maxNesting - s.depth
  rest : after = { s with cursor := after.cursor }

variable {s after after' : Session} {d d' : Sum}

/-- What lies ahead of a session is one sum at most. -/
theorem PassesSum.unique (passes : s.PassesSum d after) (passes' : s.PassesSum d' after') :
    d = d' := by
  have row : d.tokens ++ after.cursor.ahead = d'.tokens ++ after'.cursor.ahead := by
    rw [← passes.passes.ahead, passes'.passes.ahead]
  have stop : Before EndsSum after.cursor.ahead :=
    Cursor.before_ahead ((endsSum_iff _).mpr passes.ends)
  have stop' : Before EndsSum after'.cursor.ahead :=
    Cursor.before_ahead ((endsSum_iff _).mpr passes'.ends)
  exact (Sum.unique d d' row stop stop').1

theorem run_evaluate_iff {x : Float} :
    s.run (Arithmetic.evaluate Arithmetic.levels) = (.ok x, after) ↔
      ∃ d, s.PassesSum d after ∧ d.value = x := by
  rw [run_eq_ok_iff]
  constructor
  · intro found
    obtain ⟨c, ended, rfl⟩ := found
    obtain ⟨tokens, passes, ⟨d, fits, rfl, value⟩, stop⟩ :=
      (Arithmetic.sum_reads (maxNesting - s.depth) s.cursor).ok ended
    exact ⟨d, ⟨passes, (endsSum_iff _).mp stop, fits, rfl⟩, value⟩
  · intro found
    obtain ⟨d, passes, rfl⟩ := found
    have stop : EndsSum after.cursor.current.value := (endsSum_iff _).mpr passes.ends
    exact ⟨after.cursor, Arithmetic.sum_of_passes d passes.fits passes.passes stop, passes.rest⟩

theorem run_value_iff {tree : Query} :
    s.run Arithmetic.value = (.ok tree, after) ↔ ∃ d, s.PassesSum d after ∧ d.tree = tree := by
  rw [run_eq_ok_iff]
  constructor
  · intro found
    obtain ⟨c, ended, rfl⟩ := found
    have reads := Arithmetic.value_reads (fun _ => True) <|
      (Arithmetic.sum_reads (maxNesting - s.depth) s.cursor).mono
        (by rintro _ _ ⟨d, whole⟩; exact ⟨d, trivial, whole⟩) fun _ stop => stop
    obtain ⟨tokens, passes, ⟨d, _, fits, rfl, tree⟩, stop⟩ := reads.ok ended
    exact ⟨d, ⟨passes, (endsSum_iff _).mp stop, fits, rfl⟩, tree⟩
  · intro found
    obtain ⟨d, passes, rfl⟩ := found
    have stop : EndsSum after.cursor.current.value := (endsSum_iff _).mpr passes.ends
    exact ⟨after.cursor, Arithmetic.value_of_passes d passes.fits passes.passes stop, passes.rest⟩

end Session

/-- From every session, arithmetic is computed to a number when a sum lies ahead, with no operator
behind it and levels of nesting enough, and the number is the value of that sum, which is the only
one. A value then holds the number and its text, over the tokens of the sum. -/
theorem arithmetic_value (s : Session) :
    (∀ x after, s.run (Arithmetic.evaluate Arithmetic.levels) = (.ok x, after) ↔
      ∃ d, s.PassesSum d after ∧ d.value = x) ∧
    (∀ tree after, s.run Arithmetic.value = (.ok tree, after) ↔
      ∃ d, s.PassesSum d after ∧
        tree = .node .value []
          (some ⟨.number (String.ofList (Decimal.valueText d.value)), extent d.tokens⟩)
          (some d.value)) ∧
    ∀ d d' after after', s.PassesSum d after → s.PassesSum d' after' → d = d' := by
  refine ⟨fun x after => Session.run_evaluate_iff, fun tree after => ?_,
    fun d d' after after' => Session.PassesSum.unique⟩
  rw [Session.run_value_iff]
  exact exists_congr fun d => and_congr_right fun _ => eq_comm

end EventQuery
