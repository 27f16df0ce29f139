import Mathlib
import EventQuery.Proofs.Lexeme.Cutting

set_option autoImplicit false

namespace EventQuery

open Lexeme

namespace Token

/-- The content of a comment. -/
def comment? : Token → Option String
  | comment content => some content
  | _ => none

/-- The number of parentheses that are open behind a row of tokens. -/
def openBehind (tokens : List Token) : Nat := tokens.foldl depthBehind 0

theorem openBehind_concat (tokens : List Token) (t : Token) :
    openBehind (tokens ++ [t]) = depthBehind (openBehind tokens) t := by
  rw [openBehind, List.foldl_append]
  rfl

/-- The numbers of parentheses that are open before, between and behind the tokens. -/
def depths (tokens : List Token) : Set Nat := {n | ∃ front, front <+: tokens ∧ n = openBehind front}

theorem depths_concat (tokens : List Token) (t : Token) :
    depths (tokens ++ [t]) = insert (openBehind (tokens ++ [t])) (depths tokens) := by
  ext n
  simp only [depths, List.prefix_concat_iff, Set.mem_insert_iff, Set.mem_ofPred_eq]
  constructor
  · rintro ⟨front, rfl | early, rfl⟩
    · exact .inl rfl
    · exact .inr ⟨front, early, rfl⟩
  · rintro (rfl | ⟨front, early, rfl⟩)
    · exact ⟨_, .inl rfl, rfl⟩
    · exact ⟨front, .inr early, rfl⟩

/-- The sizes of the comments among the tokens, in bytes. -/
def commentSizes (tokens : List Token) : Set Nat :=
  {n | ∃ content, comment content ∈ tokens ∧ n = byteCount content.toList}

theorem commentSizes_concat (tokens : List Token) (t : Token) :
    commentSizes (tokens ++ [t]) =
      {n | ∃ content, t = comment content ∧ n = byteCount content.toList} ∪ commentSizes tokens := by
  ext n
  simp only [commentSizes, List.mem_append, List.mem_singleton, Set.mem_union, Set.mem_ofPred_eq]
  constructor
  · rintro ⟨content, earlier | rfl, rfl⟩
    · exact .inr ⟨content, earlier, rfl⟩
    · exact .inl ⟨content, rfl, rfl⟩
  · rintro (⟨content, rfl, rfl⟩ | ⟨content, earlier, rfl⟩)
    · exact ⟨content, .inr rfl, rfl⟩
    · exact ⟨content, .inl earlier, rfl⟩

end Token

open Token (comment? openBehind depths commentSizes)

/-- Trivia is counted where it is asked for, and every other token always. -/
def Counting.Counts (counting : Counting) (t : Token) : Bool := t.isSignificant || counting.trivia

/-- The number of tokens of a class that are counted. -/
def Counting.number (counting : Counting) (c : Token.Class) (tokens : List Token) : Nat :=
  tokens.countP fun t => counting.Counts t && t.tokenClass = c

namespace Tally

/-- The tally counts the tokens, and their comments in any case. If classes are told apart, it has
each class that a counted token belongs to once, with the number of these tokens, so that the numbers
add up to the total; otherwise it has no class. -/
structure Counts (t : Tally) (counting : Counting) (tokens : List Token) : Prop where
  total : t.total = tokens.countP counting.Counts
  comments : t.comments = tokens.countP fun k => k.comment?.isSome
  plain : counting.detailed = false → t.classes = []
  classes : counting.detailed = true → ∀ c, t.ofClass c = counting.number c tokens
  listed : counting.detailed = true →
    (t.classes.map Prod.fst).Nodup ∧ ∀ c n, (c, n) ∈ t.classes → 0 < n
  sum : counting.detailed = true → (t.classes.map Prod.snd).sum = t.total

/-- The tally has the size of the longest comment, none being as good as an empty one, and the
greatest number of parentheses that are open at once. -/
structure Reaches (t : Tally) (tokens : List Token) : Prop where
  longest : IsGreatest (insert 0 (commentSizes tokens)) t.longestComment
  deepest : IsGreatest (depths tokens) t.deepest

theorem keys_increment (c : Token.Class) (counts : List (Token.Class × Nat)) :
    (increment c counts).map Prod.fst =
      if c ∈ counts.map Prod.fst then counts.map Prod.fst else counts.map Prod.fst ++ [c] := by
  induction counts with
  | nil => rfl
  | cons entry rest ih =>
    obtain ⟨d, n⟩ := entry
    by_cases here : c = d
    · simp [increment, here]
    · by_cases later : c ∈ rest.map Prod.fst <;> simp [increment, here, ih, later]

theorem nodup_keys_increment {c : Token.Class} {counts : List (Token.Class × Nat)}
    (distinct : (counts.map Prod.fst).Nodup) : ((increment c counts).map Prod.fst).Nodup := by
  rw [keys_increment]
  split
  · exact distinct
  · rename_i absent
    refine List.nodup_append.mpr ⟨distinct, List.nodup_singleton _, ?_⟩
    intro known member last new
    rw [List.mem_singleton.mp new]
    rintro rfl
    exact absent member

theorem pos_of_mem_increment {c : Token.Class} {counts : List (Token.Class × Nat)}
    (positive : ∀ d n, (d, n) ∈ counts → 0 < n) :
    ∀ d n, (d, n) ∈ increment c counts → 0 < n := by
  induction counts with
  | nil =>
    intro d n member
    cases List.mem_singleton.mp member
    exact Nat.one_pos
  | cons entry rest ih =>
    obtain ⟨e, m⟩ := entry
    have later := ih fun d n member => positive d n (List.mem_cons_of_mem _ member)
    intro d n member
    by_cases here : c = e
    · rw [increment, if_pos here] at member
      rcases List.mem_cons.mp member with same | behind
      · cases same
        exact Nat.succ_pos m
      · exact positive d n (List.mem_cons_of_mem _ behind)
    · rw [increment, if_neg here] at member
      rcases List.mem_cons.mp member with same | behind
      · cases same
        exact positive e m List.mem_cons_self
      · exact later d n behind

theorem sum_increment (c : Token.Class) (counts : List (Token.Class × Nat)) :
    ((increment c counts).map Prod.snd).sum = (counts.map Prod.snd).sum + 1 := by
  induction counts with
  | nil => rfl
  | cons entry rest ih =>
    obtain ⟨d, n⟩ := entry
    by_cases here : c = d
    · simp only [increment, if_pos here, List.map_cons, List.sum_cons]
      omega
    · simp only [increment, if_neg here, List.map_cons, List.sum_cons, ih]
      omega

variable {t : Tally} {counting : Counting} {tokens : List Token}

theorem counts_zero (counting : Counting) : zero.Counts counting [] where
  total := rfl
  comments := rfl
  plain _ := rfl
  classes _ _ := rfl
  listed _ := ⟨List.nodup_nil, fun _ _ absent => by cases absent⟩
  sum _ := rfl

theorem comments_record (counting : Counting) (t : Tally) (token : Token) :
    (t.record counting token).comments = t.comments + if token.comment?.isSome then 1 else 0 := by
  unfold record
  dsimp only
  rw [apply_ite Tally.comments]
  cases token <;> simp [comment?]

/-- A token that is not counted leaves all but the comments as they are. -/
theorem record_of_not_counts (t : Tally) {token : Token} (left : counting.Counts token = false) :
    (t.record counting token).total = t.total ∧
      (t.record counting token).classes = t.classes := by
  have skipped : (token.isTrivia && !counting.trivia) = true := by
    simpa [Counting.Counts, Token.isSignificant] using left
  unfold record
  dsimp only
  rw [if_pos skipped]
  exact ⟨rfl, rfl⟩

theorem record_of_counts (t : Tally) {token : Token} (counted : counting.Counts token = true) :
    (t.record counting token).total = t.total + 1 ∧
      (t.record counting token).classes =
        if counting.detailed then increment token.tokenClass t.classes else t.classes := by
  have taken : ¬ (token.isTrivia && !counting.trivia) = true := by
    cases trivial : token.isTrivia <;> simp_all [Counting.Counts, Token.isSignificant]
  unfold record
  dsimp only
  rw [if_neg taken]
  exact ⟨rfl, rfl⟩

theorem number_concat (counting : Counting) (c : Token.Class) (tokens : List Token) (token : Token) :
    counting.number c (tokens ++ [token]) = counting.number c tokens +
      if counting.Counts token && token.tokenClass = c then 1 else 0 := by
  rw [Counting.number, List.countP_append, List.countP_singleton]
  rfl

theorem Counts.comments_record (counts : t.Counts counting tokens) (token : Token) :
    (t.record counting token).comments =
      (tokens ++ [token]).countP fun k => k.comment?.isSome := by
  rw [Tally.comments_record, counts.comments, List.countP_append, List.countP_singleton]

theorem Counts.record_left (counts : t.Counts counting tokens) {token : Token}
    (left : counting.Counts token = false) :
    (t.record counting token).Counts counting (tokens ++ [token]) := by
  obtain ⟨total, classes⟩ := t.record_of_not_counts left
  refine ⟨?total, counts.comments_record token, ?plain, ?classes, ?listed, ?sum⟩
  case total =>
    rw [total, counts.total, List.countP_append, List.countP_singleton, left]
    rfl
  case plain =>
    rw [classes]
    exact counts.plain
  case classes =>
    intro detailed c
    rw [ofClass, classes, number_concat, left]
    exact counts.classes detailed c
  case listed =>
    rw [classes]
    exact counts.listed
  case sum =>
    rw [classes, total]
    exact counts.sum

theorem Counts.record_counted (counts : t.Counts counting tokens) {token : Token}
    (counted : counting.Counts token = true) :
    (t.record counting token).Counts counting (tokens ++ [token]) := by
  obtain ⟨total, classes⟩ := t.record_of_counts counted
  refine ⟨?total, counts.comments_record token, ?plain, ?classes, ?listed, ?sum⟩
  case total =>
    rw [total, counts.total, List.countP_append, List.countP_singleton, counted]
    rfl
  case plain =>
    intro plain
    rw [classes, plain]
    exact counts.plain plain
  case classes =>
    intro detailed c
    have before := counts.classes detailed c
    rw [ofClass] at before
    rw [ofClass, classes, if_pos detailed, lookup_increment, number_concat, counted, before]
    simp only [Bool.true_and, decide_eq_true_eq]
  case listed =>
    intro detailed
    obtain ⟨distinct, positive⟩ := counts.listed detailed
    rw [classes, if_pos detailed]
    exact ⟨nodup_keys_increment distinct, pos_of_mem_increment positive⟩
  case sum =>
    intro detailed
    rw [classes, if_pos detailed, sum_increment, counts.sum detailed, total]

/-- What is recorded is counted with the tokens before it. -/
theorem Counts.record (counts : t.Counts counting tokens) (token : Token) :
    (t.record counting token).Counts counting (tokens ++ [token]) := by
  cases counted : counting.Counts token with
  | false => exact counts.record_left counted
  | true => exact counts.record_counted counted

/-- The counts do not read the lengths and the depth. -/
theorem Counts.congr {t' : Tally} (counts : t.Counts counting tokens) (total : t'.total = t.total)
    (comments : t'.comments = t.comments) (classes : t'.classes = t.classes) :
    t'.Counts counting tokens := by
  obtain ⟨_, _, _, _, _⟩ := t'
  obtain ⟨_, _, _, _, _⟩ := t
  cases total
  cases comments
  cases classes
  exact ⟨counts.total, counts.comments, counts.plain, counts.classes, counts.listed, counts.sum⟩

/-- What a token adds to the lengths and the depth where it is met. -/
def meet (t : Tally) (depth : Nat) : Token → Tally
  | .leftParen => t.reach (depth + 1)
  | .comment content => t.extend content.toList
  | _ => t

/-- A token that is met is not counted yet. -/
theorem Counts.meet (counts : t.Counts counting tokens) (depth : Nat) (token : Token) :
    (t.meet depth token).Counts counting tokens := by
  unfold Tally.meet
  split <;> exact counts.congr rfl rfl rfl

theorem reaches_zero : zero.Reaches [] where
  longest := by
    have none : commentSizes [] = ∅ := by simp [commentSizes]
    rw [none, insert_empty_eq]
    exact isGreatest_singleton
  deepest := by
    have start : depths [] = {0} := by simp [depths, openBehind]
    rw [start]
    exact isGreatest_singleton

theorem deepest_meet (t : Tally) (depth : Nat) (token : Token) (within : depth ≤ t.deepest) :
    (t.meet depth token).deepest = max (depthBehind depth token) t.deepest := by
  unfold meet depthBehind
  split
  · exact Nat.max_comm ..
  · exact (Nat.max_eq_right within).symm
  · rename_i notOpening _
    split
    · exact absurd rfl notOpening
    · exact (Nat.max_eq_right (by omega)).symm
    · exact (Nat.max_eq_right within).symm

/-- A token that is met behind others is reckoned with them. -/
theorem Reaches.meet (reaches : t.Reaches tokens) (token : Token) :
    (t.meet (openBehind tokens) token).Reaches (tokens ++ [token]) where
  longest := by
    rw [Token.commentSizes_concat]
    by_cases commented : ∃ content, token = .comment content
    · obtain ⟨content, rfl⟩ := commented
      have one : {n | ∃ other, Token.comment content = .comment other ∧
          n = byteCount other.toList} = {byteCount content.toList} := by
        ext n
        simp
      rw [one, Set.singleton_union, Set.insert_comm, Tally.meet, extend, Nat.max_comm]
      exact reaches.longest.insert _
    · have none : {n | ∃ content, token = .comment content ∧ n = byteCount content.toList} = ∅ := by
        ext n
        simp only [Set.mem_ofPred_eq, Set.mem_empty_iff_false, iff_false]
        rintro ⟨content, same, _⟩
        exact commented ⟨content, same⟩
      have same : (t.meet (openBehind tokens) token).longestComment = t.longestComment := by
        unfold Tally.meet
        split
        · rfl
        · exact absurd ⟨_, rfl⟩ commented
        · rfl
      rw [none, Set.empty_union, same]
      exact reaches.longest
  deepest := by
    have here : openBehind tokens ≤ t.deepest := reaches.deepest.2 ⟨tokens, List.prefix_rfl, rfl⟩
    rw [Token.depths_concat, Token.openBehind_concat, deepest_meet t _ token here]
    exact reaches.deepest.insert _

/-- Counting a token leaves the lengths and the depth. -/
theorem Reaches.record (reaches : t.Reaches tokens) (counting : Counting) (token : Token) :
    (t.record counting token).Reaches tokens := by
  have kept : (t.record counting token).longestComment = t.longestComment ∧
      (t.record counting token).deepest = t.deepest := by
    unfold Tally.record
    dsimp only
    split <;> exact ⟨rfl, rfl⟩
  refine ⟨?_, ?_⟩
  · rw [kept.1]
    exact reaches.longest
  · rw [kept.2]
    exact reaches.deepest

end Tally

namespace Lexeme

variable {p nested : Progress} {pieces : List Piece}

theorem openBehind_tokens (pieces : List Piece) :
    openBehind (pieces.map (·.token)) = openDepth pieces := by
  rw [openBehind, openDepth, List.foldl_map]

theorem Progress.tally_nest {token : Token} (nests : p.nest token = .ok nested) :
    nested.tally = p.tally.meet p.depth token := by
  cases token with
  | leftParen =>
    rw [nest] at nests
    split at nests <;> cases nests
    rfl
  | _ =>
    cases nests
    rfl

/-- The tally of a scan is that of the tokens that it has placed. -/
structure Tallied (counting : Counting) (p : Progress) (pieces : List Piece) : Prop where
  counts : p.tally.Counts counting (pieces.map (·.token))
  reaches : p.tally.Reaches (pieces.map (·.token))

theorem tallied_start (counting : Counting) : Tallied counting .start [] :=
  ⟨Tally.counts_zero counting, Tally.reaches_zero⟩

theorem Tallied.push {counting : Counting} (tallied : Tallied counting p pieces) {token : Token}
    (depth : p.depth = openDepth pieces) (nests : p.nest token = .ok nested) (text : List Char) :
    Tallied counting (nested.push counting token text) (pieces ++ [⟨text, token⟩]) := by
  have met : nested.tally = p.tally.meet (openBehind (pieces.map (·.token))) token := by
    rw [Progress.tally_nest nests, depth, openBehind_tokens]
  have row : (pieces ++ [(⟨text, token⟩ : Piece)]).map (·.token) =
      pieces.map (·.token) ++ [token] := List.map_append
  have tally : (nested.push counting token text).tally = nested.tally.record counting token := rfl
  refine ⟨?_, ?_⟩
  · rw [row, tally, met]
    exact (tallied.counts.meet _ token).record token
  · rw [row, tally, met]
    exact (tallied.reaches.meet token).record counting token

theorem kept_tallied (counting : Counting) : Kept counting (Tallied counting) :=
  fun _ _ _ _ text follows tallied nests => tallied.push follows.depth nests text

theorem values_push (counting : Counting) (follows : p.Follows pieces) (token : Token)
    (text : List Char) :
    values (p.push counting token text).tokens.reverse = pieces.map (·.token) ++ [token] := by
  rw [Progress.push, List.reverse_cons, values_append, follows.tokens, values_placed]
  rfl

/-- The tally of a scan that ends well is that of its tokens. The tally of one that fails counts the
pieces before the place of its error. -/
def Scan.Adds (counting : Counting) (source : List Char) (s : Scan) : Prop :=
  match s.outcome with
  | .ok tokens => s.tally.Counts counting (values tokens) ∧ s.tally.Reaches (values tokens)
  | .error e => ∃ pieces left, Decomposes source pieces left ∧
    e.position = Position.start.advanceOver (covered pieces) ∧
    s.tally.Counts counting (pieces.map (·.token))

theorem adds_scan (counting : Counting) (source : List Char) :
    (scan counting source).Adds counting source := by
  have ended := ends_scan (kept_tallied counting) (tallied_start counting) source
  generalize scan counting source = found at ended ⊢
  cases ended with
  | @finished p pieces decomposes follows tallied =>
    have unmoved : p.nest .endOfInput = .ok p := rfl
    obtain ⟨counts, reaches⟩ := tallied.push follows.depth unmoved []
    rw [List.map_append] at counts reaches
    rw [Scan.finished, Scan.Adds]
    dsimp only
    rw [values_push counting follows]
    exact ⟨counts, reaches⟩
  | @failed p q pieces left fault decomposes follows tallied stayed refuses =>
    refine ⟨pieces, left, decomposes, Progress.position_stayed follows stayed, ?_⟩
    rcases stayed with rfl | ⟨token, nests⟩
    · exact tallied.counts
    · show q.tally.Counts counting _
      rw [Progress.tally_nest nests]
      exact tallied.counts.meet p.depth token

theorem Progress.nest_tally (p : Progress) (t : Tally) (token : Token) :
    { p with tally := t }.nest token =
      (p.nest token).map fun nested => { nested with tally := t.meet p.depth token } := by
  cases token with
  | leftParen =>
    simp only [nest]
    split <;> rfl
  | _ => rfl

/-- Which tokens are counted, and what was counted before them, makes no difference to the tokens and
to the fault. By induction on the lexemes: the two scans keep the same but for their tallies. -/
theorem outcome_scanFrom (counting other : Counting) (lexemes : List Lexeme) :
    ∀ (p : Progress) (t : Tally), (scanFrom other { p with tally := t } lexemes).outcome =
      (scanFrom counting p lexemes).outcome := by
  induction lexemes with
  | nil => exact fun _ _ => rfl
  | cons l rest ih =>
    intro p t
    cases read : l.read with
    | error fault => simp only [scanFrom, read, Scan.failed]
    | ok token =>
      simp only [scanFrom, read, Progress.nest_tally]
      cases p.nest token with
      | error fault => rfl
      | ok nested =>
        have full : { nested with tally := t.meet p.depth token }.full token = nested.full token := rfl
        simp only [Except.map, full]
        split
        · rfl
        · exact ih (nested.push counting token l.text) _

end Lexeme

namespace Analyzer

variable (a b : Analyzer)

theorem counting_after (sources : List SourceText) : (a.after sources).counting = a.counting := by
  induction sources generalizing a with
  | nil => rfl
  | cons source rest ih => exact ih (a.tokenize source).2

/-- Every source is tokenized alone. -/
theorem tokenize_eq (source : SourceText) :
    a.tokenize source = ((EventQuery.tokenize a.counting source).outcome,
      ⟨a.counting, (EventQuery.tokenize a.counting source).tally⟩) := rfl

theorem outcome_tokenize (counting other : Counting) (source : SourceText) :
    (EventQuery.tokenize other source).outcome = (EventQuery.tokenize counting source).outcome := by
  have same : (scan other source.content).outcome = (scan counting source.content).outcome :=
    outcome_scanFrom counting other (split source.content) .start .zero
  simp only [EventQuery.tokenize, same]

end Analyzer

/-- What is counted of a stream is what it has, with its trivia or without. -/
theorem TokenStream.countP_counts (s : TokenStream) (counting : Counting) :
    (values s.tokens).countP counting.Counts =
      if counting.trivia then s.tokens.length else s.size := by
  rw [values, List.countP_map]
  split
  · rename_i trivia
    refine List.countP_eq_length.mpr fun t _ => ?_
    simp [Counting.Counts, trivia]
  · rename_i noTrivia
    have same : (counting.Counts ∘ Located.value) = fun t => t.value.isSignificant := by
      funext t
      simp [Counting.Counts, noTrivia]
    rw [same, List.countP_eq_length_filter, ← significantTokens, s.significant_eq,
      List.length_append, TokenStream.size, List.length_singleton]

/-- The counts of an analyzer agree with its tokens and have no influence on them. Whatever two
analyzers count and have tokenized before, they give the same stream or the same error. Behind a
stream the analyzer has the counts, the lengths and the depth of its tokens, and in all as many as
there are significant tokens, or tokens where trivia is counted. Behind an error it has the counts of
the tokens before the place of the error, which are those that the source has up to there. -/
theorem Analyzer.tokenize_tallies (a b : Analyzer) (earlier others : List SourceText)
    (source : SourceText) :
    let run := (a.after earlier).tokenize source
    ((b.after others).tokenize source).1 = run.1 ∧
      match run.1 with
      | .ok stream =>
        run.2.tally.Counts a.counting (values stream.tokens) ∧
          run.2.tally.Reaches (values stream.tokens) ∧
          run.2.tally.total = if a.counting.trivia then stream.tokens.length else stream.size
      | .error e => ∃ front back, cutAt e.position.offset source.content = some (front, back) ∧
          e.position = Position.start.advanceOver front ∧
          ∃ before tokens, (a.tokenize { source with content := front }).1 = .ok before ∧
            before.tokens = tokens ++ [⟨.endOfInput, .point e.position⟩] ∧
            run.2.tally.Counts a.counting (values tokens) := by
  intro run
  have here : run = ((EventQuery.tokenize a.counting source).outcome,
      ⟨a.counting, (EventQuery.tokenize a.counting source).tally⟩) := by
    rw [← counting_after a earlier]
    exact tokenize_eq _ source
  have tally : (EventQuery.tokenize a.counting source).tally =
      (scan a.counting source.content).tally := rfl
  have adds := adds_scan a.counting source.content
  rw [here]
  refine ⟨outcome_tokenize a.counting _ source, ?_⟩
  dsimp only
  split
  · rename_i stream ended
    rw [Scan.Adds, (scan_of_ok ended).1] at adds
    obtain ⟨counts, reaches⟩ := adds
    exact ⟨counts, reaches, counts.total.trans (stream.countP_counts a.counting)⟩
  · rename_i e failed
    rw [Scan.Adds, scan_of_error failed] at adds
    obtain ⟨pieces, left, decomposes, place, counts⟩ := adds
    have all : Decomposes source.content (pieces ++ []) left := by rwa [List.append_nil]
    obtain ⟨before, accepted, row⟩ := exists_stream_before_cut a.counting source.name all
    refine ⟨covered pieces, left, cutAt_covered place decomposes.covers.symm, place, before,
      placed .start pieces, accepted, ?_, ?_⟩
    · rw [row, place]
    · rwa [values_placed]

end EventQuery
