import Mathlib
import EventQuery.Proofs.Grammar.Content
import EventQuery.Proofs.Grammar.Language
import EventQuery.Proofs.Grammar.Progress
import EventQuery.Proofs.Grammar.Retracing

set_option autoImplicit false

namespace EventQuery

open EventQuery.Derivation

namespace TokenStream

/-- Tokens of a derivation are a stream when the end of the input follows them. -/
theorem exists_of_derivation (d : Relations) (finish : Span) :
    ∃ s, ofTokens (d.tokens ++ [⟨.endOfInput, finish⟩]) none = .ok s ∧ s.content = d.tokens := by
  have kept : ∀ t ∈ d.tokens, t.value.isSignificant = true := fun t member =>
    (Bool.and_eq_true_iff.mp (d.content t member)).1
  have clean : ∀ t ∈ d.tokens, t.value ≠ .endOfInput := fun t member => by
    simpa [Token.isEnd] using (Bool.and_eq_true_iff.mp (d.content t member)).2
  have ended : significantTokens (d.tokens ++ [⟨.endOfInput, finish⟩]) =
      d.tokens ++ [⟨.endOfInput, finish⟩] := by
    rw [significantTokens, List.filter_append, List.filter_eq_self.mpr kept]
    rfl
  obtain ⟨s, accepted⟩ := exists_ofTokens ended clean none
  have row : significantTokens s.tokens = d.tokens ++ [⟨.endOfInput, finish⟩] := by
    rw [(of_ofTokens accepted).1, ended]
  exact ⟨s, accepted, (content_of_significant row).1⟩

theorem values_ne_end (s : TokenStream) : ∀ t ∈ values s.content, t ≠ .endOfInput := by
  intro t member
  obtain ⟨located, inside, rfl⟩ := List.mem_map.mp member
  exact s.content_ne_end located inside

end TokenStream

/-- A row that begins like another one up to the end of the input begins like it before that end. -/
theorem take_eq_of_prefix {l : List Token} :
    ∀ {l' : List Token} {i : Nat}, (∀ t ∈ l, t ≠ .endOfInput) → (∀ t ∈ l', t ≠ .endOfInput) →
      i ≤ l.length → (l ++ [Token.endOfInput]).take (i + 1) <+: l' ++ [Token.endOfInput] →
      l.take (i + 1) = l'.take (i + 1) := by
  induction l with
  | nil =>
    intro l' i _ clean' _ begins
    cases l' with
    | nil => rfl
    | cons b rest =>
      have same : Token.endOfInput = b := (List.cons_prefix_cons.mp begins).1
      exact absurd same.symm (clean' b (List.mem_cons_self ..))
  | cons a rest ih =>
    intro l' i clean clean' within begins
    cases l' with
    | nil =>
      have same : a = .endOfInput := (List.cons_prefix_cons.mp begins).1
      exact absurd same (clean a (List.mem_cons_self ..))
    | cons b rest' =>
      obtain ⟨rfl, later⟩ := List.cons_prefix_cons.mp begins
      cases i with
      | zero => rfl
      | succ j =>
        have shorter := ih (fun t h => clean t (List.mem_cons_of_mem _ h))
          (fun t h => clean' t (List.mem_cons_of_mem _ h)) (Nat.le_of_succ_le_succ within) later
        rw [List.take_succ_cons, List.take_succ_cons, shorter]

namespace Cursor

variable {s : TokenStream} {tokens : List (Located Token)} {d : Cursor}

theorem significant_eq_of_passes (passes : (ofStream s).Passes tokens d) :
    s.significant = tokens ++ (d.ahead ++ [⟨.endOfInput, d.finish⟩]) := by
  have row : s.content = tokens ++ d.ahead := passes.ahead
  have last : d.finish = s.finish := passes.finish
  rw [TokenStream.significant, row, last, List.append_assoc]

/-- Streams that begin alike, the token behind those passed included, look alike as far as that. -/
theorem alike_of_prefix {s' : TokenStream} (passes : (ofStream s).Passes tokens d)
    (begins : values (s.significant.take (tokens.length + 1)) <+: values s'.significant) :
    (ofStream s).Alike tokens.length (ofStream s') := by
  have within : tokens.length ≤ (values s.content).length := by
    have row : s.content = tokens ++ d.ahead := passes.ahead
    rw [length_values, row, List.length_append]
    exact Nat.le_add_right _ _
  unfold values at begins
  rw [List.map_take, TokenStream.significant, TokenStream.significant, List.map_append,
    List.map_append] at begins
  exact take_eq_of_prefix s.values_ne_end s'.values_ne_end within begins

end Cursor

/-- The tokens before number `i` go on to a query, and no query begins with them and token `i`. -/
structure TokenStream.FirstUnfit (s : TokenStream) (i : Nat) : Prop where
  viable : ∃ completion s' tree,
    ofTokens (s.significant.take i ++ completion ++ [⟨.endOfInput, s.finish⟩]) none = .ok s' ∧
      ∀ sourceName, parseQuery sourceName s' = .ok tree
  dead : ∀ sourceName s' tree, values (s.significant.take (i + 1)) <+: values s'.significant →
    parseQuery sourceName s' ≠ .ok tree

theorem firstUnfit_of_error {s : TokenStream} {f : Failure}
    (failed : Grammar.wholeQuery maxNesting (.ofStream s) = .error f) :
    s.significant[f.cursor.passed]? = some f.cursor.current ∧
      (∃ expected, f.fault = .unexpected expected) ∧ s.FirstUnfit f.cursor.passed := by
  have completes := (Grammar.wholeQuery_reads maxNesting (.ofStream s)).error failed
  obtain ⟨tokens, more, passes, tree, d, fits, spells, rfl⟩ := completes.viable
  obtain ⟨tokens', passes', same⟩ :=
    (Grammar.wholeQuery_retraces maxNesting (.ofStream s)).error failed
  cases passes.unique passes'
  have count : f.cursor.passed = tokens.length := by
    rw [passes.passed, Cursor.passed_ofStream, Nat.zero_add]
  refine ⟨((Cursor.on_ofStream s).passes passes).significant_getElem?, completes.unexpected, ?_, ?_⟩
  · obtain ⟨s', accepted, held⟩ := TokenStream.exists_of_derivation d s.finish
    refine ⟨more, s', d.tree, ?_, fun sourceName => Session.parseQuery_eq_ok_iff.mpr ?_⟩
    · rwa [Cursor.significant_eq_of_passes passes, count, List.take_left, ← spells]
    · exact Grammar.exists_run d held.symm fits
  · intro sourceName s' tree' begins accepted
    obtain ⟨e, ended⟩ := Session.parseQuery_eq_ok_iff.mp accepted
    rw [count] at begins
    obtain ⟨f', failed', _⟩ := same _ (Cursor.alike_of_prefix passes begins)
    rw [ended] at failed'
    cases failed'

/-- A syntax error is an unmet expectation at the token that the parser rests on, and that token is
the first that no query could have there. -/
theorem parse_error_earliest (sourceName : String) (s : TokenStream) (e : SyntaxError)
    (after : Session) (failed : (Session.start sourceName s).parse = (.error e, after)) :
    ∃ t, s.significant[after.cursor.passed]? = some t ∧ after.cursor.current = t ∧
      (∃ expected, e.fault = .unexpected expected) ∧ e.span = t.span ∧
      e.foundText = t.value.describe ∧ s.FirstUnfit after.cursor.passed := by
  cases ran : Grammar.wholeQuery maxNesting (.ofStream s) with
  | ok result =>
    rw [Session.parse_of_ok ran] at failed
    cases failed
  | error f =>
    rw [Session.parse_of_error ran] at failed
    cases failed
    obtain ⟨here, unexpected, unfit⟩ := firstUnfit_of_error ran
    exact ⟨f.cursor.current, here, rfl, unexpected, rfl, rfl, unfit⟩

/-- A binding that breaks off where its variable should stand. -/
def unnamedBinding : TokenStream where
  tokens := [⟨.relation "A", .origin⟩, ⟨.space, .origin⟩, ⟨.asKeyword, .origin⟩,
    ⟨.rightParen, .origin⟩, ⟨.endOfInput, .origin⟩]
  source := none
  content := [⟨.relation "A", .origin⟩, ⟨.asKeyword, .origin⟩, ⟨.rightParen, .origin⟩]
  finish := .origin
  significant_eq := by decide
  content_ne_end := by decide

theorem unnamedBinding_earliest :
    (Session.start "q" unnamedBinding).parse =
        (.error ⟨"q", .unexpected .variableName, ⟨.rightParen, .origin⟩⟩,
          ⟨"q", ⟨2, [⟨.rightParen, .origin⟩], .origin, .origin⟩, 0⟩) ∧
      unnamedBinding.FirstUnfit 2 := by
  have failed : (Session.start "q" unnamedBinding).parse =
      (.error ⟨"q", .unexpected .variableName, ⟨.rightParen, .origin⟩⟩,
        ⟨"q", ⟨2, [⟨.rightParen, .origin⟩], .origin, .origin⟩, 0⟩) := by
    cbv
  obtain ⟨_, _, _, _, _, _, unfit⟩ := parse_error_earliest "q" unnamedBinding _ _ failed
  exact ⟨failed, unfit⟩

end EventQuery
