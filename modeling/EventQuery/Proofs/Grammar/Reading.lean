import EventQuery.Grammar.Chain

set_option autoImplicit false

namespace EventQuery

/-- The token of a kind that carries a value, at the place of the value. -/
def Located.token {α : Type} (kind : α → Token) (x : Located α) : Located Token :=
  ⟨kind x.value, x.span⟩

namespace Token

theorem exists_word {t : Token} (named : t.word?.isSome = true) : ∃ name, t = .word name := by
  cases t <;> first | exact ⟨_, rfl⟩ | cases named

theorem exists_comparison {t : Token}
    (compares : (match t with | .comparison _ => true | _ => false) = true) :
    ∃ op, t = .comparison op := by
  cases t <;> first | exact ⟨_, rfl⟩ | cases compares

end Token

namespace Cursor

/-- `d` is where `c` comes to by passing the tokens of the list. -/
def Passes (c : Cursor) : List (Located Token) → Cursor → Prop
  | [], d => c = d
  | t :: rest, d => c.current = t ∧ ∃ next, c.next? = some next ∧ next.Passes rest d

@[simp] theorem passes_nil (c d : Cursor) : c.Passes [] d ↔ c = d := Iff.rfl

theorem passes_cons (c d : Cursor) (t : Located Token) (rest : List (Located Token)) :
    c.Passes (t :: rest) d ↔
      c.current = t ∧ ∃ next, c.next? = some next ∧ next.Passes rest d := Iff.rfl

theorem passes_append (c e : Cursor) (front back : List (Located Token)) :
    c.Passes (front ++ back) e ↔ ∃ d, c.Passes front d ∧ d.Passes back e := by
  induction front generalizing c with
  | nil => simp
  | cons t rest ih =>
    rw [List.cons_append, passes_cons]
    constructor
    · intro found
      rcases found with ⟨here, next, stepped, passed⟩
      obtain ⟨d, first, last⟩ := (ih next).mp passed
      exact ⟨d, ⟨here, next, stepped, first⟩, last⟩
    · intro found
      rcases found with ⟨d, ⟨here, next, stepped, first⟩, last⟩
      exact ⟨here, next, stepped, (ih next).mpr ⟨d, first, last⟩⟩

theorem Passes.append {c d e : Cursor} {front back : List (Located Token)}
    (first : c.Passes front d) (second : d.Passes back e) : c.Passes (front ++ back) e :=
  (passes_append c e front back).mpr ⟨d, first, second⟩

theorem next?_eq_some {c d : Cursor} (stepped : c.next? = some d) :
    c.ahead = c.current :: d.ahead ∧ d.passed = c.passed + 1 ∧ d.finish = c.finish ∧
      d.last = c.current.span := by
  obtain ⟨passed, ahead, finish, last⟩ := c
  cases ahead with
  | nil => cases stepped
  | cons t rest =>
    cases stepped
    exact ⟨rfl, rfl, rfl, rfl⟩

theorem next?_eq_none {c : Cursor} (stuck : c.next? = none) : c.current = ⟨.endOfInput, c.finish⟩ := by
  obtain ⟨passed, ahead, finish, last⟩ := c
  cases ahead with
  | nil => rfl
  | cons t rest => cases stuck

/-- A token other than the end of the input can be passed. -/
theorem exists_next {c : Cursor} (more : c.current.value ≠ .endOfInput) :
    ∃ d, c.next? = some d ∧ c.Passes [c.current] d := by
  cases stepped : c.next? with
  | some d => exact ⟨d, rfl, rfl, d, stepped, rfl⟩
  | none => exact absurd (congrArg Located.value (next?_eq_none stepped)) more

theorem Passes.ahead {c d : Cursor} {tokens : List (Located Token)} (passes : c.Passes tokens d) :
    c.ahead = tokens ++ d.ahead := by
  induction tokens generalizing c with
  | nil => exact congrArg Cursor.ahead passes
  | cons t rest ih =>
    obtain ⟨rfl, next, stepped, later⟩ := passes
    rw [(next?_eq_some stepped).1, ih later, List.cons_append]

theorem Passes.passed {c d : Cursor} {tokens : List (Located Token)} (passes : c.Passes tokens d) :
    d.passed = c.passed + tokens.length := by
  induction tokens generalizing c with
  | nil => exact (congrArg Cursor.passed passes).symm
  | cons t rest ih =>
    obtain ⟨rfl, next, stepped, later⟩ := passes
    have behind := (next?_eq_some stepped).2.1
    rw [ih later, List.length_cons]
    omega

theorem Passes.finish {c d : Cursor} {tokens : List (Located Token)} (passes : c.Passes tokens d) :
    d.finish = c.finish := by
  induction tokens generalizing c with
  | nil => exact (congrArg Cursor.finish passes).symm
  | cons t rest ih =>
    obtain ⟨rfl, next, stepped, later⟩ := passes
    rw [ih later, (next?_eq_some stepped).2.2.1]

/-- The token passed last is remembered by its place. -/
theorem Passes.last {c d : Cursor} {t : Located Token} {rest : List (Located Token)}
    (passes : c.Passes (t :: rest) d) : d.last = (rest.getLastD t).span := by
  induction rest generalizing c t with
  | nil =>
    obtain ⟨rfl, next, stepped, rfl⟩ := passes
    exact (next?_eq_some stepped).2.2.2
  | cons u more ih =>
    obtain ⟨rfl, next, stepped, later⟩ := passes
    rw [ih later, List.getLastD_cons]

theorem Passes.head {c d : Cursor} {tokens : List (Located Token)} {t : Located Token}
    (passes : c.Passes tokens d) (first : t ∈ tokens.head?) : t = c.current := by
  cases tokens with
  | nil => cases first
  | cons u rest =>
    cases first
    exact passes.1.symm

/-- Tokens that lie ahead can be passed. -/
theorem exists_passes (tokens : List (Located Token)) :
    ∀ (c : Cursor) (rest : List (Located Token)), c.ahead = tokens ++ rest →
      ∃ d, c.Passes tokens d ∧ d.ahead = rest := by
  induction tokens with
  | nil => exact fun c rest here => ⟨c, rfl, here⟩
  | cons t more ih =>
    intro c rest here
    rcases c with ⟨passed, ahead, finish, last⟩
    cases here
    obtain ⟨d, passes, left⟩ := ih ⟨passed + 1, more ++ rest, finish, t.span⟩ rest rfl
    exact ⟨d, ⟨rfl, _, rfl, passes⟩, left⟩

end Cursor

/-- A failure that is an unmet expectation, with all nesting closed, behind tokens that a phrase of
the language goes on from. -/
structure Failure.Completes (f : Failure) (c : Cursor) (phrase : List (Located Token) → Prop) :
    Prop where
  unexpected : ∃ expected, f.fault = .unexpected expected
  closed : f.opened = 0
  viable : ∃ tokens more, c.Passes tokens f.cursor ∧ phrase (tokens ++ more)

/-- A failure further on is one of the whole. -/
theorem Failure.Completes.extend {f : Failure} {c d : Cursor} {front : List (Located Token)}
    {inner outer : List (Located Token) → Prop} (failed : f.Completes d inner)
    (passes : c.Passes front d) (whole : ∀ v, inner v → ∃ w, outer (front ++ (v ++ w))) :
    f.Completes c outer := by
  obtain ⟨tokens, more, reached, phrase⟩ := failed.viable
  obtain ⟨w, complete⟩ := whole _ phrase
  refine ⟨failed.unexpected, failed.closed, front ++ tokens, more ++ w, passes.append reached, ?_⟩
  simpa only [List.append_assoc] using complete

namespace Parser

variable {α β ω : Type}

/-- From `c`, the parser passes a phrase of the language and stops before a token that `before`
holds of, or it fails where a phrase could still go on. -/
def Reads (p : Parser α) (c : Cursor) (phrase : List (Located Token) → α → Prop)
    (before : Token → Prop) : Prop :=
  match p c with
  | .ok (a, d) => ∃ tokens, c.Passes tokens d ∧ phrase tokens a ∧ before d.current.value
  | .error f => f.Completes c fun tokens => ∃ a, phrase tokens a

variable {c : Cursor} {phrase : List (Located Token) → α → Prop} {before : Token → Prop}

theorem Reads.ok {p : Parser α} (reads : p.Reads c phrase before) {a : α} {d : Cursor}
    (ended : p c = .ok (a, d)) :
    ∃ tokens, c.Passes tokens d ∧ phrase tokens a ∧ before d.current.value := by
  rw [Reads, ended] at reads
  exact reads

theorem Reads.error {p : Parser α} (reads : p.Reads c phrase before) {f : Failure}
    (failed : p c = .error f) : f.Completes c fun tokens => ∃ a, phrase tokens a := by
  rw [Reads, failed] at reads
  exact reads

theorem Reads.mono {p : Parser α} {wider : List (Located Token) → α → Prop} {later : Token → Prop}
    (reads : p.Reads c phrase before) (widen : ∀ tokens a, phrase tokens a → wider tokens a)
    (stop : ∀ t, before t → later t) : p.Reads c wider later := by
  unfold Reads
  split
  · rename_i a d ended
    obtain ⟨tokens, passes, holds, stopped⟩ := reads.ok ended
    exact ⟨tokens, passes, widen _ _ holds, stop _ stopped⟩
  · rename_i f failed
    refine (reads.error failed).extend (show c.Passes [] c from rfl) ?_
    intro v found
    rcases found with ⟨a, holds⟩
    exact ⟨[], a, by simpa using widen _ _ holds⟩

theorem Reads.pure {a : α} (empty : phrase [] a) (stop : before c.current.value) :
    (Pure.pure a : Parser α).Reads c phrase before :=
  ⟨[], rfl, empty, stop⟩

theorem Reads.fail {expected : Expectation} (tokens : List (Located Token)) {a : α}
    (other : phrase tokens a) : (Parser.fail expected : Parser α).Reads c phrase before :=
  ⟨⟨expected, rfl⟩, rfl, [], tokens, rfl, a, other⟩

theorem bind_of_ok {p : Parser α} {a : α} {d : Cursor} (ended : p c = .ok (a, d))
    (q : α → Parser β) : (p >>= q) c = q a d := by
  simp only [Bind.bind, StateT.bind, ended, Except.bind]

theorem bind_of_error {p : Parser α} {f : Failure} (failed : p c = .error f)
    (q : α → Parser β) : (p >>= q) c = .error f := by
  simp only [Bind.bind, StateT.bind, failed, Except.bind]

theorem keepingOpen_of_ok {p : Parser α} {result : α × Cursor} (ended : p c = .ok result) :
    keepingOpen p c = .ok result := by
  rw [keepingOpen, ended]
  rfl

theorem keepingOpen_of_error {p : Parser α} {f : Failure} (failed : p c = .error f) :
    keepingOpen p c = .error { f with opened := f.opened + 1 } := by
  rw [keepingOpen, failed]
  rfl

variable {whole : List (Located Token) → β → Prop} {after : Token → Prop}

/-- Behind the tokens that were passed, what is left of the phrase is to be read. -/
theorem Reads.behind {p : Parser α} {q : α → Parser β} {a : α} {d : Cursor}
    {front : List (Located Token)} (ended : p c = .ok (a, d)) (passes : c.Passes front d)
    (rest : (q a).Reads d (fun back b => whole (front ++ back) b) after) :
    (p >>= q).Reads c whole after := by
  unfold Reads
  rw [bind_of_ok ended]
  split
  · rename_i b e finished
    obtain ⟨back, passesBack, complete, stop⟩ := rest.ok finished
    exact ⟨front ++ back, passes.append passesBack, complete, stop⟩
  · rename_i f failed
    refine (rest.error failed).extend passes ?_
    intro v found
    rcases found with ⟨b, complete⟩
    exact ⟨[], b, by simpa only [List.append_nil] using complete⟩

/-- Whatever the first parser has read must leave a phrase to go on with, for a failure within it
to be completed. -/
theorem Reads.bind {p : Parser α} {q : α → Parser β} (first : p.Reads c phrase before)
    (second : ∀ front a d, c.Passes front d → phrase front a → before d.current.value →
      (q a).Reads d (fun back b => whole (front ++ back) b) after)
    (goesOn : ∀ front a, phrase front a → ∃ back b, whole (front ++ back) b) :
    (p >>= q).Reads c whole after := by
  cases ran : p c with
  | ok result =>
    obtain ⟨a, d⟩ := result
    obtain ⟨front, passes, holds, stopped⟩ := first.ok ran
    exact Reads.behind ran passes (second front a d passes holds stopped)
  | error f =>
    unfold Reads
    rw [bind_of_error ran]
    refine (first.error ran).extend (show c.Passes [] c from rfl) ?_
    intro v found
    rcases found with ⟨a, holds⟩
    obtain ⟨back, b, complete⟩ := goesOn v a holds
    exact ⟨back, b, complete⟩

theorem Reads.peek {q : Token → Parser β} (rest : (q c.current.value).Reads c whole after) :
    (Parser.peek >>= q).Reads c whole after := rest

theorem Reads.current {q : Located Token → Parser β} (rest : (q c.current).Reads c whole after) :
    (Parser.current >>= q).Reads c whole after := rest

theorem Reads.get {q : Cursor → Parser β} (rest : (q c).Reads c whole after) :
    (MonadState.get >>= q).Reads c whole after := rest

theorem advance_of_next {d : Cursor} (stepped : c.next? = some d) :
    advance c = .ok (c.current, d) := by
  simp only [advance, stepped]

theorem Reads.advance {q : Located Token → Parser β} (more : c.current.value ≠ .endOfInput)
    (rest : ∀ d, c.Passes [c.current] d →
      (q c.current).Reads d (fun back b => whole (c.current :: back) b) after) :
    (Parser.advance >>= q).Reads c whole after := by
  obtain ⟨d, stepped, passes⟩ := Cursor.exists_next more
  exact Reads.behind (advance_of_next stepped) passes (rest d passes)

theorem expect_of_accepted {accepted : Token → Bool} {d : Cursor} {expected : Expectation}
    (fits : accepted c.current.value = true) (stepped : c.next? = some d) :
    expect accepted expected c = .ok (c.current, d) := by
  rw [expect, bind_of_ok (show Parser.peek c = .ok (c.current.value, c) from rfl), if_pos fits]
  exact advance_of_next stepped

theorem expect_of_refused {accepted : Token → Bool} {expected : Expectation}
    (unfit : accepted c.current.value = false) :
    expect accepted expected c = .error ⟨.unexpected expected, c, 0⟩ := by
  rw [expect, bind_of_ok (show Parser.peek c = .ok (c.current.value, c) from rfl),
    if_neg (by simp [unfit])]
  rfl

/-- An expected token is passed, or the run fails before it. -/
theorem Reads.expect {accepted : Token → Bool} {expected : Expectation}
    {q : Located Token → Parser β} (inside : accepted .endOfInput = false)
    (other : ∃ tokens b, whole tokens b)
    (rest : ∀ d, accepted c.current.value = true → c.Passes [c.current] d →
      (q c.current).Reads d (fun back b => whole (c.current :: back) b) after) :
    (Parser.expect accepted expected >>= q).Reads c whole after := by
  cases fits : accepted c.current.value with
  | true =>
    have more : c.current.value ≠ .endOfInput := by
      intro ended
      rw [ended, inside] at fits
      cases fits
    obtain ⟨d, stepped, passes⟩ := Cursor.exists_next more
    exact Reads.behind (expect_of_accepted fits stepped) passes (rest d fits passes)
  | false =>
    unfold Reads
    rw [bind_of_error (expect_of_refused fits)]
    obtain ⟨tokens, b, complete⟩ := other
    exact ⟨⟨expected, rfl⟩, rfl, [], tokens, rfl, b, complete⟩

theorem Reads.expectToken {token : Token} {expected : Expectation} {q : Located Token → Parser β}
    (inside : token ≠ .endOfInput) (other : ∃ tokens b, whole tokens b)
    (rest : ∀ span d, c.Passes [⟨token, span⟩] d →
      (q ⟨token, span⟩).Reads d (fun back b => whole (⟨token, span⟩ :: back) b) after) :
    (Parser.expectToken token expected >>= q).Reads c whole after := by
  apply Reads.expect (by simpa using inside.symm) other
  intro d fits passes
  have same : c.current = ⟨token, c.current.span⟩ := by rw [← of_decide_eq_true fits]
  rw [same] at passes ⊢
  exact rest _ d passes

theorem Reads.expectWord {expected : Expectation} {q : Located Token → Parser β}
    (other : ∃ tokens b, whole tokens b)
    (rest : ∀ (name : Located String) d, c.Passes [name.token .word] d →
      (q (name.token .word)).Reads d (fun back b => whole (name.token .word :: back) b) after) :
    (Parser.expectWord expected >>= q).Reads c whole after := by
  apply Reads.expect rfl other
  intro d fits passes
  obtain ⟨name, same⟩ := Token.exists_word fits
  have here : c.current = (⟨name, c.current.span⟩ : Located String).token .word := by
    rw [Located.token, ← same]
  rw [here] at passes ⊢
  exact rest _ d passes

theorem Reads.expectComparison {q : Located Token → Parser β} (other : ∃ tokens b, whole tokens b)
    (rest : ∀ (op : Located Comparison) d, c.Passes [op.token .comparison] d →
      (q (op.token .comparison)).Reads d (fun back b => whole (op.token .comparison :: back) b)
        after) :
    (Parser.expectComparison >>= q).Reads c whole after := by
  apply Reads.expect rfl other
  intro d fits passes
  obtain ⟨op, same⟩ := Token.exists_comparison fits
  have here : c.current = (⟨op, c.current.span⟩ : Located Comparison).token .comparison := by
    rw [Located.token, ← same]
  rw [here] at passes ⊢
  exact rest _ d passes

end Parser

end EventQuery
