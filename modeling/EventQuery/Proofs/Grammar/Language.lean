import EventQuery.Grammar.Session
import EventQuery.Proofs.Token.Stream
import EventQuery.Proofs.Grammar.Soundness
import EventQuery.Proofs.Grammar.Completeness
import EventQuery.Proofs.Grammar.Unambiguity

set_option autoImplicit false

namespace EventQuery

open EventQuery.Derivation

namespace Cursor

@[simp] theorem ahead_ofStream (s : TokenStream) : (ofStream s).ahead = s.content := rfl

@[simp] theorem passed_ofStream (s : TokenStream) : (ofStream s).passed = 0 := rfl

/-- Only behind all other tokens is the end of the input found. -/
theorem ahead_of_current_end {s : TokenStream} {tokens : List (Located Token)} {d : Cursor}
    (passes : (ofStream s).Passes tokens d) (ended : d.current.value = .endOfInput) :
    d.ahead = [] := by
  have row : s.content = tokens ++ d.ahead := passes.ahead
  cases left : d.ahead with
  | nil => rfl
  | cons t rest =>
    have inside : t ∈ s.content := by
      rw [row, left]
      exact List.mem_append_right tokens (List.mem_cons_self ..)
    rw [current, left] at ended
    exact absurd ended (s.content_ne_end t inside)

end Cursor

namespace Session

variable {sourceName : String} {s : TokenStream}

theorem parse_of_ok {tree : Query} {e : Cursor}
    (ended : Grammar.wholeQuery maxNesting (.ofStream s) = .ok (tree, e)) :
    (start sourceName s).parse = (.ok tree, ⟨sourceName, e, 0⟩) := by
  have ran : Grammar.wholeQuery (maxNesting - 0) (.ofStream s) = .ok (tree, e) := ended
  simp only [parse, run, start, ran]

theorem parse_of_error {f : Failure}
    (failed : Grammar.wholeQuery maxNesting (.ofStream s) = .error f) :
    (start sourceName s).parse =
      (.error ⟨sourceName, f.fault, f.cursor.current⟩, ⟨sourceName, f.cursor, f.opened⟩) := by
  have ran : Grammar.wholeQuery (maxNesting - 0) (.ofStream s) = .error f := failed
  simp only [parse, run, start, ran, Nat.zero_add]

theorem parseQuery_eq_ok_iff {tree : Query} :
    parseQuery sourceName s = .ok tree ↔
      ∃ e, Grammar.wholeQuery maxNesting (.ofStream s) = .ok (tree, e) := by
  cases ran : Grammar.wholeQuery maxNesting (.ofStream s) with
  | ok result =>
    obtain ⟨found, e⟩ := result
    rw [parseQuery, parse_of_ok ran]
    constructor
    · rintro ⟨⟩
      exact ⟨e, rfl⟩
    · intro found
      rcases found with ⟨e, ⟨⟩⟩
      rfl
  | error f =>
    rw [parseQuery, parse_of_error ran]
    constructor
    · rintro ⟨⟩
    · intro found
      rcases found with ⟨e, ⟨⟩⟩

end Session

namespace Grammar

theorem exists_derivation {budget : Nat} {s : TokenStream} {tree : Query} {e : Cursor}
    (ended : wholeQuery budget (.ofStream s) = .ok (tree, e)) :
    Relations.Spells budget s.content tree := by
  obtain ⟨tokens, passes, spelled, stop⟩ := (wholeQuery_reads budget (.ofStream s)).ok ended
  have row : s.content = tokens ++ e.ahead := passes.ahead
  rw [Cursor.ahead_of_current_end passes stop, List.append_nil] at row
  rw [row]
  exact spelled

theorem exists_run {budget : Nat} {s : TokenStream} (d : Relations) (spells : d.tokens = s.content)
    (fits : d.need ≤ budget) : ∃ e, wholeQuery budget (.ofStream s) = .ok (d.tree, e) := by
  obtain ⟨e, passes, ends⟩ := Cursor.exists_passes d.tokens (.ofStream s) [] (by
    rw [Cursor.ahead_ofStream, List.append_nil, spells])
  exact ⟨e, wholeQuery_of_passes d fits passes ends⟩

end Grammar

/-- A token stream is parsed when its significant tokens have a derivation within the limit of
nesting, to the tree of that derivation, and it has one derivation at most. -/
theorem parseQuery_language (sourceName : String) (s : TokenStream) :
    (∀ tree, parseQuery sourceName s = .ok tree ↔
      ∃ d : Relations, significantTokens s.tokens = d.tokens ++ [⟨.endOfInput, s.finish⟩] ∧
        d.need ≤ maxNesting ∧ d.tree = tree) ∧
    ∀ d d' : Relations,
      significantTokens s.tokens = d.tokens ++ [⟨.endOfInput, s.finish⟩] →
      significantTokens s.tokens = d'.tokens ++ [⟨.endOfInput, s.finish⟩] → d = d' := by
  refine ⟨fun tree => ?_, fun d d' spells spells' => ?_⟩
  · rw [Session.parseQuery_eq_ok_iff]
    constructor
    · intro found
      rcases found with ⟨e, ended⟩
      obtain ⟨d, fits, spells, meaning⟩ := Grammar.exists_derivation ended
      exact ⟨d, by rw [spells]; exact s.significant_eq, fits, meaning⟩
    · intro found
      rcases found with ⟨d, spells, fits, rfl⟩
      exact Grammar.exists_run d (TokenStream.content_of_significant spells).1.symm fits
  · refine Relations.eq_of_tokens ?_
    rw [← (TokenStream.content_of_significant spells).1,
      (TokenStream.content_of_significant spells').1]

end EventQuery
