import EventQuery.Token.Stream

set_option autoImplicit false

namespace EventQuery.TokenStream

/-- A stream is fixed by its tokens and its source. -/
theorem eq_of_tokens {s s' : TokenStream} (tokens : s.tokens = s'.tokens)
    (source : s.source = s'.source) : s = s' := by
  obtain ⟨row, text, content, finish, found, clean⟩ := s
  obtain ⟨row', text', content', finish', found', clean'⟩ := s'
  cases tokens
  cases source
  have same : content ++ [⟨Token.endOfInput, finish⟩] = content' ++ [⟨.endOfInput, finish'⟩] :=
    found.symm.trans found'
  obtain ⟨rfl, last⟩ := List.append_inj' same rfl
  cases last
  rfl

theorem of_ofTokens {tokens : List (Located Token)} {source : Option SourceText}
    {s : TokenStream} (accepted : ofTokens tokens source = .ok s) :
    s.tokens = tokens ∧ s.source = source := by
  unfold ofTokens at accepted
  split at accepted
  · cases accepted
  · split at accepted
    · split at accepted
      · cases accepted
        exact ⟨rfl, rfl⟩
      · cases accepted
    · cases accepted

theorem exists_ofTokens {tokens content : List (Located Token)} {finish : Span}
    (ended : significantTokens tokens = content ++ [⟨.endOfInput, finish⟩])
    (clean : ∀ t ∈ content, t.value ≠ .endOfInput) (source : Option SourceText) :
    ∃ s, ofTokens tokens source = .ok s := by
  have back : (significantTokens tokens).reverse = ⟨.endOfInput, finish⟩ :: content.reverse := by
    rw [ended, List.reverse_append]
    rfl
  unfold ofTokens
  split
  · rename_i none
    rw [back] at none
    cases none
  · rename_i last before found
    rw [back] at found
    cases found
    have alone : content.reverse.all (fun t => t.value ≠ .endOfInput) = true := by
      simpa using clean
    rw [dif_pos rfl, dif_pos alone]
    exact ⟨_, rfl⟩

theorem ofTokens_eq_ok_iff (tokens : List (Located Token)) (source : Option SourceText)
    (s : TokenStream) :
    ofTokens tokens source = .ok s ↔ s.tokens = tokens ∧ s.source = source := by
  constructor
  · exact of_ofTokens
  · rintro ⟨rfl, rfl⟩
    obtain ⟨s', accepted⟩ := exists_ofTokens s.significant_eq s.content_ne_end s.source
    obtain ⟨tokens, source⟩ := of_ofTokens accepted
    rw [accepted, eq_of_tokens tokens source]

/-- What lies before the end of the input is fixed by the significant tokens. -/
theorem content_of_significant {s : TokenStream} {content : List (Located Token)} {finish : Span}
    (ended : significantTokens s.tokens = content ++ [⟨.endOfInput, finish⟩]) :
    s.content = content ∧ s.finish = finish := by
  have same : s.content ++ [⟨Token.endOfInput, s.finish⟩] = content ++ [⟨.endOfInput, finish⟩] :=
    s.significant_eq.symm.trans ended
  obtain ⟨before, last⟩ := List.append_inj' same rfl
  cases last
  exact ⟨before, rfl⟩

end EventQuery.TokenStream
