import Mathlib
import EventQuery.Proofs.Lexeme.Tokenization
import EventQuery.Proofs.Source.Place

set_option autoImplicit false

namespace EventQuery

open Lexeme

/-- The tokens follow each other from `p` to `q`, each beginning where the one before it ends. -/
def Tiles (p : Position) : List (Located Token) → Position → Prop
  | [], q => p = q
  | t :: rest, q => t.span.start = p ∧ Tiles t.span.stop rest q

/-- A place in a text where a character begins or the text ends. -/
def Boundary (content : List Char) (p : Position) : Prop :=
  ∃ front back, content = front ++ back ∧ p.Behind front

/-- A boundary with the line and the column that a reader counts, however large they are. -/
def Counted (content : List Char) (p : Position) : Prop :=
  ∃ front back, content = front ++ back ∧ p.Counts front

theorem Boundary.counted {content : List Char} {p : Position} (boundary : Boundary content p)
    (short : content.length < 2 ^ 32 - 1) : Counted content p := by
  obtain ⟨front, back, rfl, behind⟩ := boundary
  rw [List.length_append] at short
  exact ⟨front, back, rfl, behind.counts (by omega)⟩

namespace TokenStream

/-- The tokens of a stream with the texts that they cover. -/
def pieces (s : TokenStream) : List Piece :=
  s.tokens.map fun t => ⟨(s.sourceText? t.span).getD [], t.value⟩

/-- The tokens of a stream lie over a source without gaps, and no token but the end of the input is
empty. -/
structure Covers (s : TokenStream) (source : SourceText) : Prop where
  tiles : ∃ before finish, s.tokens = before ++ [⟨.endOfInput, .point finish⟩] ∧
    (∀ t ∈ before, t.value ≠ .endOfInput) ∧ Tiles .start before finish ∧
    finish.offset = source.size
  nonempty : ∀ t ∈ s.tokens, t.value ≠ .endOfInput → t.span.start.offset < t.span.stop.offset
  boundary : ∀ t ∈ s.tokens,
    Boundary source.content t.span.start ∧ Boundary source.content t.span.stop
  counted : source.content.length < 2 ^ 32 - 1 → ∀ t ∈ s.tokens,
    Counted source.content t.span.start ∧ Counted source.content t.span.stop
  text : s.tokens.flatMap (fun t => (s.sourceText? t.span).getD []) = source.content
  rebuilt : ∃ s', (s.tokens.foldl
      (fun b t => b.push t.value ((s.sourceText? t.span).getD [])) StreamBuilder.empty).build =
        .ok s' ∧ s'.tokens = s.tokens

end TokenStream

namespace Lexeme

theorem tiles_placed (p : Position) (pieces : List Piece) :
    Tiles p (placed p pieces) (p.advanceOver (covered pieces)) := by
  induction pieces generalizing p with
  | nil => rfl
  | cons piece rest ih =>
    rw [covered_cons, Position.advanceOver_append]
    exact ⟨rfl, ih _⟩

/-- A placed token begins behind the pieces before it and ends behind its own text. -/
theorem exists_of_mem_placed {p : Position} {pieces : List Piece} {t : Located Token} :
    t ∈ placed p pieces → ∃ front piece back, pieces = front ++ piece :: back ∧
      t = ⟨piece.token, ⟨p.advanceOver (covered front),
        p.advanceOver (covered front ++ piece.text)⟩⟩ := by
  induction pieces generalizing p with
  | nil => exact fun absent => by cases absent
  | cons piece rest ih =>
    intro member
    rcases List.mem_cons.mp member with rfl | later
    · exact ⟨[], piece, rest, rfl, rfl⟩
    · obtain ⟨front, other, back, rfl, same⟩ := ih later
      refine ⟨piece :: front, other, back, rfl, ?_⟩
      rw [same, covered_cons]
      simp only [Position.advanceOver_append]

/-- Each placed token covers its text in the source. -/
theorem map_spanText_placed {source : SourceText} (pieces : List Piece) :
    ∀ {front back : List Char}, source.content = front ++ (covered pieces ++ back) →
      (placed (Position.start.advanceOver front) pieces).map
          (fun t => (⟨source.spanText t.span, t.value⟩ : Piece)) = pieces := by
  induction pieces with
  | nil => exact fun _ => rfl
  | cons piece rest ih =>
    intro front back here
    rw [covered_cons, List.append_assoc] at here
    have later : source.content = (front ++ piece.text) ++ (covered rest ++ back) := by
      rw [here, List.append_assoc]
    have first : (Position.start.advanceOver front).offset = byteCount front :=
      (Position.behind_advanceOver front).offset
    have last : ((Position.start.advanceOver front).advanceOver piece.text).offset =
        byteCount (front ++ piece.text) := by
      rw [← Position.advanceOver_append]
      exact (Position.behind_advanceOver (front ++ piece.text)).offset
    have text : source.spanText ⟨Position.start.advanceOver front,
        (Position.start.advanceOver front).advanceOver piece.text⟩ = piece.text := by
      rw [SourceText.spanText, first, last, here, sliceBytes_append]
      rfl
    rw [placed, List.map_cons, text, ← Position.advanceOver_append, ih later]

section Covering

variable {source : SourceText} {pieces : List Piece}

theorem covered_of_decomposes (decomposes : Decomposes source.content pieces []) :
    covered pieces = source.content := by
  rw [← decomposes.covers, List.append_nil]

theorem boundary_of_covered {front : List Char} {rest : List Char}
    (here : source.content = front ++ rest) :
    Boundary source.content (Position.start.advanceOver front) :=
  ⟨front, rest, here, Position.behind_advanceOver front⟩

/-- What a piece of a decomposed source takes up in it. -/
theorem boundaries_of_piece {front back : List Piece} {piece : Piece}
    (whole : covered (front ++ piece :: back) = source.content) :
    Boundary source.content (Position.start.advanceOver (covered front)) ∧
      Boundary source.content (Position.start.advanceOver (covered front ++ piece.text)) := by
  rw [covered_append, covered_cons] at whole
  constructor
  · exact boundary_of_covered whole.symm
  · rw [← List.append_assoc] at whole
    exact boundary_of_covered whole.symm

theorem nonempty_of_piece {front : List Char} {piece : Piece} (present : piece.text ≠ []) :
    (Position.start.advanceOver front).offset <
      (Position.start.advanceOver (front ++ piece.text)).offset := by
  have size := byteCount_pos present
  rw [Position.advanceOver_append, Position.offset_advanceOver _ piece.text]
  omega

end Covering

theorem Decomposes.ne_nil {source left : List Char} {pieces : List Piece}
    (decomposes : Decomposes source pieces left) : ∀ piece ∈ pieces, piece.text ≠ [] :=
  fun piece member => (decomposes.pattern piece member).ne_nil

end Lexeme

section Covering

variable {source : SourceText} {pieces : List Piece} {s : TokenStream}

/-- The place of a token in a stream of placed pieces: a piece, or the end of the source. -/
theorem cases_of_mem_tokens (tokens : s.tokens = placed .start pieces ++
      [⟨.endOfInput, .point (Position.start.advanceOver source.content)⟩])
    {t : Located Token} (member : t ∈ s.tokens) :
    (∃ front piece back, pieces = front ++ piece :: back ∧
        t = ⟨piece.token, ⟨Position.start.advanceOver (covered front),
          Position.start.advanceOver (covered front ++ piece.text)⟩⟩) ∨
      t = ⟨.endOfInput, .point (Position.start.advanceOver source.content)⟩ := by
  rw [tokens] at member
  rcases List.mem_append.mp member with inside | last
  · exact .inl (exists_of_mem_placed inside)
  · exact .inr (List.mem_singleton.mp last)

/-- The tokens with their texts are the pieces, and the end of the input with no text. -/
theorem pieces_of_tokens (whole : covered pieces = source.content)
    (tokens : s.tokens = placed .start pieces ++
      [⟨.endOfInput, .point (Position.start.advanceOver source.content)⟩])
    (held : s.source = some source) :
    s.pieces = pieces ++ [⟨[], .endOfInput⟩] := by
  have here : source.content = [] ++ (covered pieces ++ []) := by
    rw [whole, List.append_nil, List.nil_append]
  have texts : ∀ span, (s.sourceText? span).getD [] = source.spanText span := fun span => by
    rw [TokenStream.sourceText?, held]
    rfl
  have empty : source.spanText (.point (Position.start.advanceOver source.content)) = [] := by
    have offset := (Position.behind_advanceOver source.content).offset
    have slice := sliceBytes_append source.content [] []
    rw [List.append_nil, List.append_nil] at slice
    rw [SourceText.spanText, Span.point, offset, slice]
    rfl
  simp only [TokenStream.pieces, texts]
  rw [tokens, List.map_append]
  exact congr (congrArg _ (map_spanText_placed pieces here)) (by rw [List.map_singleton, empty])

/-- The stream that is built anew from the texts of the tokens. -/
theorem exists_rebuilt (tokens : s.tokens = placed .start s.pieces) :
    ∃ s', (s.tokens.foldl
        (fun b t => b.push t.value ((s.sourceText? t.span).getD [])) StreamBuilder.empty).build =
      .ok s' ∧ s'.tokens = s.tokens := by
  have pushed : (s.tokens.foldl (fun b t => b.push t.value ((s.sourceText? t.span).getD []))
      StreamBuilder.empty).tokens.toList = s.tokens := by
    have all := foldl_push s.pieces StreamBuilder.empty
    rw [TokenStream.pieces, List.foldl_map] at all
    rw [all]
    exact tokens.symm
  obtain ⟨s', accepted⟩ := TokenStream.exists_ofTokens s.significant_eq s.content_ne_end none
  refine ⟨s', ?_, (TokenStream.of_ofTokens accepted).1⟩
  rw [StreamBuilder.build, pushed]
  exact accepted

theorem covers_of_pieces (decomposes : Decomposes source.content pieces [])
    (tokens : s.tokens = placed .start pieces ++
      [⟨.endOfInput, .point (Position.start.advanceOver source.content)⟩])
    (held : s.source = some source) : s.Covers source := by
  have whole : covered pieces = source.content := covered_of_decomposes decomposes
  have gathered := pieces_of_tokens whole tokens held
  have boundary : ∀ t ∈ s.tokens,
      Boundary source.content t.span.start ∧ Boundary source.content t.span.stop := by
    intro t member
    rcases cases_of_mem_tokens tokens member with ⟨front, piece, back, rfl, rfl⟩ | rfl
    · exact boundaries_of_piece whole
    · have last := boundary_of_covered (List.append_nil source.content).symm
      exact ⟨last, last⟩
  refine ⟨?tiles, ?nonempty, boundary, ?counted, ?text, ?rebuilt⟩
  case tiles =>
    refine ⟨placed .start pieces, Position.start.advanceOver source.content, tokens, ?_, ?_, ?_⟩
    · intro t member
      obtain ⟨piece, inside, same⟩ := placed_value t member
      rw [same]
      exact decomposes.ne_end piece inside
    · rw [← whole]
      exact tiles_placed .start pieces
    · exact (Position.behind_advanceOver source.content).offset
  case nonempty =>
    intro t member more
    rcases cases_of_mem_tokens tokens member with ⟨front, piece, back, rfl, rfl⟩ | rfl
    · have inside : piece ∈ front ++ piece :: back :=
        List.mem_append_right front (List.mem_cons_self ..)
      exact nonempty_of_piece (decomposes.ne_nil piece inside)
    · exact absurd rfl more
  case counted =>
    intro short t member
    obtain ⟨first, last⟩ := boundary t member
    exact ⟨first.counted short, last.counted short⟩
  case text =>
    have texts : s.tokens.flatMap (fun t => (s.sourceText? t.span).getD []) = covered s.pieces := by
      rw [covered, TokenStream.pieces, List.flatMap_map]
    rw [texts, gathered, covered_append, whole, covered_cons, covered_nil, List.append_nil,
      List.append_nil]
  case rebuilt =>
    refine exists_rebuilt ?_
    rw [gathered, placed_append, whole, tokens]
    rfl

/-- The tokens of every source tile it, and no tokenization fails for want of a proper stream. -/
theorem tokenize_tiles (counting : Counting) (source : SourceText) :
    match (tokenize counting source).outcome with
    | .ok stream => stream.Covers source
    | .error e => ∀ error, e.fault ≠ .malformedStream error := by
  split
  · rename_i stream ended
    obtain ⟨pieces, decomposes, tokens, held⟩ := exists_pieces_of_ok ended
    exact covers_of_pieces decomposes tokens held
  · rename_i e failed
    obtain ⟨pieces, left, _, _, refuses⟩ := exists_pieces_of_error failed
    intro error malformed
    rw [malformed] at refuses
    cases refuses with
    | exceeding _ exceeds =>
      cases exceeds with
      | size large => cases large

end Covering

end EventQuery
