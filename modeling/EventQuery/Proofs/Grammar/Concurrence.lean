import EventQuery.Proofs.Grammar.Progress
import EventQuery.Proofs.Grammar.Retracing

set_option autoImplicit false

namespace EventQuery

open EventQuery.Parser EventQuery.Query

/-- Behind tokens of the same values, the values of what is left are the same. -/
theorem Cursor.values_ahead_of_passes {c d c' d' : Cursor} {tokens tokens' : List (Located Token)}
    (ahead : values c.ahead = values c'.ahead) (passes : c.Passes tokens d)
    (passes' : c'.Passes tokens' d') (same : values tokens = values tokens') :
    values d.ahead = values d'.ahead := by
  have row : values tokens ++ values d.ahead = values tokens ++ values d'.ahead := by
    calc values tokens ++ values d.ahead
        = values c.ahead := by rw [passes.ahead, values_append]
      _ = values c'.ahead := ahead
      _ = values tokens ++ values d'.ahead := by rw [passes'.ahead, values_append, same]
  exact List.append_cancel_left row

theorem Cursor.current_of_values_ahead {c c' : Cursor}
    (ahead : values c.ahead = values c'.ahead) : c.current.value = c'.current.value := by
  have alike : c.Alike 0 c' := congrArg (List.take 1) ahead
  exact alike.current

/-- Two faults of one kind, at tokens of one value. What they say differs in the name and the place
of the source only. -/
structure SyntaxError.Matches (e e' : SyntaxError) : Prop where
  fault : e.fault = e'.fault
  found : e.found.value = e'.found.value
  expectedText : e.expectedText = e'.expectedText
  foundText : e.foundText = e'.foundText

theorem SyntaxError.matches_of_fault {e e' : SyntaxError} (fault : e.fault = e'.fault)
    (found : e.found.value = e'.found.value) : e.Matches e' := by
  refine ⟨fault, found, ?_, ?_⟩
  · simp only [expectedText, fault]
  · simp only [foundText, found]

namespace Session

variable {α : Type}

/-- As many levels of nesting are open, and tokens of the same values lie ahead. -/
structure SeesLike (s s' : Session) : Prop where
  depth : s.depth = s'.depth
  ahead : values s.cursor.ahead = values s'.cursor.ahead

/-- Both runs end well, with results that are related, or both fail, with faults that match. -/
def ResultsMatch (R : α → α → Prop) : Except SyntaxError α → Except SyntaxError α → Prop
  | .ok a, .ok a' => R a a'
  | .error e, .error e' => e.Matches e'
  | _, _ => False

/-- What is left behind by runs from `s` and from `s'` that do the same: both have passed as many
tokens, both see the same again, and a fault is at the token that the run has come to. -/
structure Concurs (R : α → α → Prop) (s s' : Session)
    (outcome outcome' : Except SyntaxError α × Session) : Prop where
  results : ResultsMatch R outcome.1 outcome'.1
  passed : ∃ n, outcome.2.cursor.passed = s.cursor.passed + n ∧
    outcome'.2.cursor.passed = s'.cursor.passed + n
  sees : outcome.2.SeesLike outcome'.2
  found : ∀ e, outcome.1 = .error e → e.found = outcome.2.cursor.current
  found' : ∀ e, outcome'.1 = .error e → e.found = outcome'.2.cursor.current

variable {R : α → α → Prop} {s s' : Session} {parser : Nat → Parser α}

theorem run_found (parser : Nat → Parser α) (s : Session) (e : SyntaxError)
    (failed : (s.run parser).1 = .error e) : e.found = (s.run parser).2.cursor.current := by
  cases ran : parser (maxNesting - s.depth) s.cursor with
  | ok result =>
    rw [run_of_ok ran] at failed
    cases failed
  | error f =>
    rw [run_of_error ran] at failed ⊢
    cases failed
    rfl

/-- A parser that retraces itself runs alike in sessions that see the same. -/
theorem run_concurs (like : s.SeesLike s')
    (retraces : ∀ budget c, Retraces R (parser budget) (parser budget) c) :
    Concurs R s s' (s.run parser) (s'.run parser) := by
  have budget : maxNesting - s'.depth = maxNesting - s.depth := by rw [like.depth]
  have alike (n : Nat) : s.cursor.Alike n s'.cursor := congrArg (List.take (n + 1)) like.ahead
  cases ran : parser (maxNesting - s.depth) s.cursor with
  | ok result =>
    obtain ⟨a, d⟩ := result
    obtain ⟨tokens, passes, again⟩ := (retraces _ s.cursor).ok ran
    obtain ⟨a', d', ran', related, tokens', passes', same⟩ := again s'.cursor (alike _)
    have long : tokens'.length = tokens.length := by
      rw [← length_values, ← same, length_values]
    have left := Cursor.values_ahead_of_passes like.ahead passes passes' same
    rw [← budget] at ran'
    have passed' : d'.passed = s'.cursor.passed + tokens.length := by rw [passes'.passed, long]
    have found := run_found parser s
    have found' := run_found parser s'
    rw [run_of_ok ran] at found ⊢
    rw [run_of_ok ran'] at found' ⊢
    exact ⟨related, ⟨tokens.length, passes.passed, passed'⟩, ⟨like.depth, left⟩, found, found'⟩
  | error f =>
    obtain ⟨tokens, passes, again⟩ := (retraces _ s.cursor).error ran
    obtain ⟨f', ran', fault, opened, tokens', passes', same⟩ := again s'.cursor (alike _)
    have long : tokens'.length = tokens.length := by
      rw [← length_values, ← same, length_values]
    have left := Cursor.values_ahead_of_passes like.ahead passes passes' same
    rw [← budget] at ran'
    have passed' : f'.cursor.passed = s'.cursor.passed + tokens.length := by
      rw [passes'.passed, long]
    have depth : s.depth + f.opened = s'.depth + f'.opened := by rw [like.depth, opened]
    have found := run_found parser s
    have found' := run_found parser s'
    rw [run_of_error ran] at found ⊢
    rw [run_of_error ran'] at found' ⊢
    exact ⟨SyntaxError.matches_of_fault fault (Cursor.current_of_values_ahead left),
      ⟨tokens.length, passes.passed, passed'⟩, ⟨depth, left⟩, found, found'⟩

/-- Parsing begins anew with the nesting, so it needs no more than the tokens ahead. -/
theorem parse_concurs (ahead : values s.cursor.ahead = values s'.cursor.ahead) :
    Concurs SameButPlaces s s' s.parse s'.parse := by
  have anew : SeesLike { s with depth := 0 } { s' with depth := 0 } := ⟨rfl, ahead⟩
  have whole := run_concurs anew Grammar.wholeQuery_retraces
  exact ⟨whole.results, whole.passed, whole.sees, whole.found, whole.found'⟩

end Session

namespace TokenStream

/-- The values of the significant tokens. -/
def spelling (s : TokenStream) : List Token := values (significantTokens s.tokens)

theorem values_content_of_spelling {s s' : TokenStream} (same : s.spelling = s'.spelling) :
    values s.content = values s'.content := by
  unfold spelling at same
  rw [s.significant_eq, s'.significant_eq, values_append, values_append] at same
  exact (List.append_inj' same rfl).1

/-- The results are the same query apart from places, or faults that match, each at a significant
token of its stream and both at tokens of one number. -/
structure ParsesLike (s s' : TokenStream) (result result' : Except SyntaxError Query) : Prop where
  results : Session.ResultsMatch SameButPlaces result result'
  places : ∀ e e', result = .error e → result' = .error e' →
    ∃ i : Nat, s.significant[i]? = some e.found ∧ s'.significant[i]? = some e'.found

theorem parsesLike_of_spelling (name name' : String) {s s' : TokenStream}
    (same : s.spelling = s'.spelling) :
    s.ParsesLike s' (parseQuery name s) (parseQuery name' s') := by
  have concurs : Session.Concurs SameButPlaces (.start name s) (.start name' s') _ _ :=
    Session.parse_concurs (values_content_of_spelling same)
  have on (name : String) (s : TokenStream) : (Session.start name s).parse.2.cursor.On s :=
    (Session.run_proceeds (Cursor.on_ofStream s) Grammar.wholeQuery_advances).within
  refine ⟨concurs.results, fun e e' failed failed' => ?_⟩
  obtain ⟨n, count, count'⟩ := concurs.passed
  have place := (on name s).significant_getElem?
  have place' := (on name' s').significant_getElem?
  rw [count, ← concurs.found e failed] at place
  rw [count', ← concurs.found' e' failed'] at place'
  exact ⟨0 + n, place, place'⟩

end TokenStream

/-- All productions run alike in two sessions that see the same: they end alike, pass as many
tokens, and leave sessions that see the same again. For arithmetic this holds over any list of
levels. Streams that spell the same are parsed alike from their beginnings. -/
theorem runs_concur :
    (∀ s s' : Session, s.SeesLike s' →
      s.Concurs SameButPlaces s' s.parse s'.parse ∧
      s.Concurs SameButPlaces s' (s.run Grammar.query) (s'.run Grammar.query) ∧
      s.Concurs SameButPlaces s' (s.run Grammar.term) (s'.run Grammar.term) ∧
      s.Concurs SameButPlaces s' (s.run Grammar.operand) (s'.run Grammar.operand) ∧
      s.Concurs SameButPlaces s' (s.run Grammar.formula) (s'.run Grammar.formula) ∧
      s.Concurs SameButPlaces s' (s.run fun _ => Grammar.reference)
        (s'.run fun _ => Grammar.reference) ∧
      s.Concurs SameButPlaces s' (s.run Arithmetic.value) (s'.run Arithmetic.value) ∧
      ∀ levels, s.Concurs Eq s' (s.run (Arithmetic.evaluate levels))
        (s'.run (Arithmetic.evaluate levels))) ∧
    ∀ (name name' : String) (stream stream' : TokenStream), stream.spelling = stream'.spelling →
      stream.ParsesLike stream' (parseQuery name stream) (parseQuery name' stream') := by
  refine ⟨fun s s' like => ?_, fun name name' stream stream' same =>
    TokenStream.parsesLike_of_spelling name name' same⟩
  refine ⟨Session.parse_concurs like.ahead, Session.run_concurs like Grammar.query_retraces,
    Session.run_concurs like Grammar.term_retraces,
    Session.run_concurs like Grammar.operand_retraces,
    Session.run_concurs like Grammar.formula_retraces,
    Session.run_concurs like fun _ _ => Grammar.reference_retraces,
    Session.run_concurs like fun budget _ => Arithmetic.value_retraces budget, fun levels => ?_⟩
  exact Session.run_concurs like fun budget c =>
    Arithmetic.expression_retraces levels budget levels c

/-- `A as x` with a comment in it, each token at a place of its own. -/
def commentedBinding : TokenStream where
  tokens := [⟨.relation "A", ⟨⟨0, 1, 1⟩, ⟨1, 1, 2⟩⟩⟩, ⟨.space, ⟨⟨1, 1, 2⟩, ⟨2, 1, 3⟩⟩⟩,
    ⟨.asKeyword, ⟨⟨2, 1, 3⟩, ⟨4, 1, 5⟩⟩⟩, ⟨.comment "c", ⟨⟨4, 1, 5⟩, ⟨6, 1, 7⟩⟩⟩,
    ⟨.newline, ⟨⟨6, 1, 7⟩, ⟨7, 2, 1⟩⟩⟩, ⟨.word "x", ⟨⟨7, 2, 1⟩, ⟨8, 2, 2⟩⟩⟩,
    ⟨.endOfInput, .point ⟨8, 2, 2⟩⟩]
  source := none
  content := [⟨.relation "A", ⟨⟨0, 1, 1⟩, ⟨1, 1, 2⟩⟩⟩, ⟨.asKeyword, ⟨⟨2, 1, 3⟩, ⟨4, 1, 5⟩⟩⟩,
    ⟨.word "x", ⟨⟨7, 2, 1⟩, ⟨8, 2, 2⟩⟩⟩]
  finish := .point ⟨8, 2, 2⟩
  significant_eq := by decide
  content_ne_end := by decide

/-- `A as x` at no place in particular. -/
def bareBinding : TokenStream where
  tokens := [⟨.relation "A", .origin⟩, ⟨.asKeyword, .origin⟩, ⟨.word "x", .origin⟩,
    ⟨.endOfInput, .origin⟩]
  source := none
  content := [⟨.relation "A", .origin⟩, ⟨.asKeyword, .origin⟩, ⟨.word "x", .origin⟩]
  finish := .origin
  significant_eq := by decide
  content_ne_end := by decide

def atCommented : Session := ⟨"p", .ofStream commentedBinding, 127⟩

/-- The bare binding behind two other tokens. -/
def laterOn : Session := ⟨"q", ⟨2, bareBinding.content, .origin, .origin⟩, 127⟩

theorem commentedBinding_concurs :
    atCommented.SeesLike laterOn ∧
      atCommented.Concurs SameButPlaces laterOn (atCommented.run Grammar.query)
        (laterOn.run Grammar.query) ∧
      commentedBinding.spelling = bareBinding.spelling ∧
      commentedBinding.ParsesLike bareBinding (parseQuery "p" commentedBinding)
        (parseQuery "q" bareBinding) := by
  have like : atCommented.SeesLike laterOn := ⟨rfl, rfl⟩
  have spelled : commentedBinding.spelling = bareBinding.spelling := by decide
  obtain ⟨sessions, streams⟩ := runs_concur
  exact ⟨like, (sessions _ _ like).2.1, spelled, streams "p" "q" _ _ spelled⟩

end EventQuery
