import EventQuery.Proofs.Lexeme.Locality
import EventQuery.Proofs.Lexeme.Tiling
import EventQuery.Proofs.Lexeme.Writing
import EventQuery.Proofs.Query.Placeless

set_option autoImplicit false

namespace EventQuery

open Lexeme

namespace TokenStream

/-- A token of the stream begins or ends at the place. -/
def Bounds (s : TokenStream) (p : Position) : Prop :=
  ∃ t ∈ s.tokens, p = t.span.start ∨ p = t.span.stop

/-- The tokens that end at an offset or before it, apart from the end of the input. -/
def endingBy (s : TokenStream) (offset : Nat) : List (Located Token) :=
  s.tokens.filter fun t => t.value ≠ .endOfInput ∧ t.span.stop.offset ≤ offset

/-- The tokens that begin at an offset or behind it. -/
def beginningFrom (s : TokenStream) (offset : Nat) : List (Located Token) :=
  s.tokens.filter fun t => offset ≤ t.span.start.offset

end TokenStream

section Filtering

variable {α : Type} {keep : α → Bool} {front back : List α}

theorem filter_append_left (kept : ∀ a ∈ front, keep a = true) (dropped : ∀ a ∈ back, ¬ keep a = true) :
    (front ++ back).filter keep = front := by
  rw [List.filter_append, List.filter_eq_self.mpr kept, List.filter_eq_nil_iff.mpr dropped,
    List.append_nil]

theorem filter_append_right (dropped : ∀ a ∈ front, ¬ keep a = true)
    (kept : ∀ a ∈ back, keep a = true) : (front ++ back).filter keep = back := by
  rw [List.filter_append, List.filter_eq_nil_iff.mpr dropped, List.filter_eq_self.mpr kept,
    List.nil_append]

end Filtering

section Placing

variable {p : Position} {pieces : List Piece} {t : Located Token}

/-- The pieces lie between the place before them and the place behind them. -/
theorem offsets_of_mem_placed (present : ∀ piece ∈ pieces, piece.text ≠ [])
    (member : t ∈ placed p pieces) :
    p.offset ≤ t.span.start.offset ∧ t.span.start.offset < t.span.stop.offset ∧
      t.span.stop.offset ≤ (p.advanceOver (covered pieces)).offset := by
  obtain ⟨front, piece, back, rfl, rfl⟩ := exists_of_mem_placed member
  have size : 0 < byteCount piece.text := byteCount_pos (present piece (by simp))
  simp only [Position.offset_advanceOver, covered_append, covered_cons, byteCount_append]
  omega

theorem value_ne_end_of_mem_placed (clean : ∀ piece ∈ pieces, piece.token ≠ .endOfInput)
    (member : t ∈ placed p pieces) : t.value ≠ .endOfInput := by
  obtain ⟨piece, inside, same⟩ := placed_value t member
  rw [same]
  exact clean piece inside

/-- The values of placed pieces are their tokens, wherever they are placed. -/
theorem values_placed (p : Position) (pieces : List Piece) :
    values (placed p pieces) = pieces.map (·.token) := map_value_placed p pieces

end Placing

section Cutting

variable {counting : Counting} {source : SourceText} {stream : TokenStream}

/-- A place where a token begins or ends lies between two pieces. -/
theorem exists_cut {pieces : List Piece} (whole : covered pieces = source.content)
    (tokens : stream.tokens = placed .start pieces ++
      [⟨.endOfInput, .point (Position.start.advanceOver source.content)⟩])
    {p : Position} (bounds : stream.Bounds p) :
    ∃ front back, pieces = front ++ back ∧ p = Position.start.advanceOver (covered front) := by
  obtain ⟨t, member, place⟩ := bounds
  rcases cases_of_mem_tokens tokens member with ⟨front, piece, back, rfl, rfl⟩ | rfl
  · rcases place with begins | ends
    · exact ⟨front, piece :: back, rfl, begins⟩
    · refine ⟨front ++ [piece], back, by simp, ?_⟩
      rw [covered_append, covered_cons, covered_nil, List.append_nil]
      exact ends
  · have last : p = Position.start.advanceOver (covered pieces) := by
      rw [whole]
      exact place.elim id id
    exact ⟨pieces, [], (List.append_nil pieces).symm, last⟩

variable {front back : List Piece} {left : List Char} {finish : Span} {p : Position}

/-- The tokens on either side of a cut are those of the pieces there. -/
theorem tokens_beside_cut (place : p = Position.start.advanceOver (covered front))
    (present : ∀ piece ∈ front ++ back, piece.text ≠ [])
    (clean : ∀ piece ∈ front ++ back, piece.token ≠ .endOfInput)
    (behind : p.offset ≤ finish.start.offset)
    (tokens : stream.tokens = placed .start (front ++ back) ++ [⟨.endOfInput, finish⟩]) :
    stream.endingBy p.offset = placed .start front ∧
      stream.beginningFrom p.offset = placed p back ++ [⟨.endOfInput, finish⟩] := by
  have row : stream.tokens = placed .start front ++ (placed p back ++ [⟨.endOfInput, finish⟩]) := by
    rw [tokens, placed_append, ← place, List.append_assoc]
  have first : ∀ t ∈ placed .start front, t.value ≠ .endOfInput ∧
      t.span.start.offset < p.offset ∧ t.span.stop.offset ≤ p.offset := by
    intro t member
    have inside : ∀ piece ∈ front, piece ∈ front ++ back := fun _ => List.mem_append_left back
    have offsets := offsets_of_mem_placed (fun piece here => present piece (inside piece here)) member
    have other := value_ne_end_of_mem_placed (fun piece here => clean piece (inside piece here)) member
    rw [← place] at offsets
    exact ⟨other, by omega, by omega⟩
  have last : ∀ t ∈ placed p back,
      p.offset ≤ t.span.start.offset ∧ p.offset < t.span.stop.offset := by
    intro t member
    have inside : ∀ piece ∈ back, piece ∈ front ++ back := fun _ => List.mem_append_right front
    have offsets := offsets_of_mem_placed (fun piece here => present piece (inside piece here)) member
    omega
  rw [TokenStream.endingBy, TokenStream.beginningFrom, row]
  constructor
  · apply filter_append_left
    · intro t member
      simp [first t member]
    · intro t member
      rcases List.mem_append.mp member with inside | ended
      · simp [last t inside]
      · simp [List.mem_singleton.mp ended]
  · apply filter_append_right
    · intro t member
      simp [first t member]
    · intro t member
      rcases List.mem_append.mp member with inside | ended
      · simp [last t inside]
      · simp [List.mem_singleton.mp ended, behind]

/-- A cut takes the text of the pieces before it. -/
theorem cutAt_covered (place : p = Position.start.advanceOver (covered front))
    (whole : source.content = covered front ++ left) :
    cutAt p.offset source.content = some (covered front, left) := by
  have offset : p.offset = byteCount (covered front) := by
    rw [place]
    exact (Position.behind_advanceOver (covered front)).offset
  rw [offset, whole, cutAt_append]

/-- The part of a source before a cut is tokenized to the pieces there. -/
theorem exists_stream_before_cut (counting : Counting) (name : String) {content : List Char}
    (decomposes : Decomposes content (front ++ back) left) :
    ∃ stream, (tokenize counting ⟨name, covered front⟩).outcome = .ok stream ∧
      stream.tokens = placed .start front ++
        [⟨.endOfInput, .point (Position.start.advanceOver (covered front))⟩] := by
  have part : Decomposes (SourceText.mk name (covered front)).content front [] :=
    decomposes.before_cut
  exact exists_stream_of_decomposes counting part

end Cutting

/-- At every place where a token of a tokenized source begins or ends, the source can be cut. The part
before the cut is tokenized to the tokens that end there or before, with the end of the input at the
cut, and the part behind it to tokens of the same values as those that begin there or behind. A source
that is refused can be cut at the place of the error, and the part before it is tokenized. -/
theorem tokenize_cut (counting : Counting) (source : SourceText) :
    match (tokenize counting source).outcome with
    | .ok stream => ∀ p, stream.Bounds p → ∃ front back,
        cutAt p.offset source.content = some (front, back) ∧
        (∃ before, (tokenize counting { source with content := front }).outcome = .ok before ∧
          before.tokens = stream.endingBy p.offset ++ [⟨.endOfInput, .point p⟩]) ∧
        ∃ behind, (tokenize counting { source with content := back }).outcome = .ok behind ∧
          values behind.tokens = values (stream.beginningFrom p.offset)
    | .error e => ∃ front back, cutAt e.position.offset source.content = some (front, back) ∧
        e.position = Position.start.advanceOver front ∧
        ∃ before, (tokenize counting { source with content := front }).outcome = .ok before := by
  split
  · rename_i stream ended
    intro p bounds
    obtain ⟨pieces, decomposes, tokens, _⟩ := exists_pieces_of_ok ended
    have whole := covered_of_decomposes decomposes
    obtain ⟨front, back, rfl, place⟩ := exists_cut whole tokens bounds
    have content : source.content = covered front ++ covered back := by
      rw [← whole, covered_append]
    have behind : p.offset ≤ (Position.start.advanceOver source.content).offset := by
      rw [content, Position.advanceOver_append, ← place, Position.offset_advanceOver]
      omega
    obtain ⟨ending, beginning⟩ :=
      tokens_beside_cut place decomposes.ne_nil decomposes.ne_end behind tokens
    obtain ⟨before, accepted, row⟩ := exists_stream_before_cut counting source.name decomposes
    have part : Decomposes (SourceText.mk source.name (covered back)).content back [] := by
      have behind := decomposes.behind_cut
      rwa [List.append_nil] at behind
    obtain ⟨after, accepted', row'⟩ := exists_stream_of_decomposes counting part
    refine ⟨covered front, covered back, cutAt_covered place content, ⟨before, accepted, ?_⟩,
      after, accepted', ?_⟩
    · rw [row, ending, place]
    · rw [row', beginning, values_append, values_append, values_placed, values_placed]
      rfl
  · rename_i e failed
    obtain ⟨pieces, left, decomposes, place, _⟩ := exists_pieces_of_error failed
    have all : Decomposes source.content (pieces ++ []) left := by rwa [List.append_nil]
    obtain ⟨before, accepted, _⟩ := exists_stream_before_cut counting source.name all
    exact ⟨covered pieces, left, cutAt_covered place decomposes.covers.symm, place, before, accepted⟩

end EventQuery
