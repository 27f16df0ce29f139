import EventQuery.Proofs.Grammar.Depth
import EventQuery.Proofs.Lexeme.Respelling

/- Parentheses are counted twice: by the tokenizer, which stops at 128 open ones, and by the
parser among its levels of nesting. Whatever is parsed is balanced within its levels, so the
tokenizer refuses no source that could still become a query. -/

set_option autoImplicit false

namespace EventQuery

/-- Opening parentheses less closing ones. -/
def balance (tokens : List Token) : Int := tokens.count .leftParen - tokens.count .rightParen

@[simp] theorem balance_nil : balance [] = 0 := rfl

@[simp] theorem balance_append (front back : List Token) :
    balance (front ++ back) = balance front + balance back := by
  simp only [balance, List.count_append]
  omega

theorem balance_cons (t : Token) (rest : List Token) :
    balance (t :: rest) = balance [t] + balance rest := balance_append [t] rest

@[simp] theorem balance_leftParen : balance [.leftParen] = 1 := rfl

@[simp] theorem balance_rightParen : balance [.rightParen] = -1 := rfl

theorem balance_of_not_mem {tokens : List Token} (opens : .leftParen ∉ tokens)
    (closes : .rightParen ∉ tokens) : balance tokens = 0 := by
  rw [balance, List.count_eq_zero.mpr opens, List.count_eq_zero.mpr closes]
  rfl

/-- No more parentheses than the limit are open at a time, none is closed that is not open, and in the
end all are closed. -/
structure Balanced (limit : Nat) (tokens : List Token) : Prop where
  within : ∀ front, front <+: tokens → 0 ≤ balance front ∧ balance front ≤ limit
  closes : balance tokens = 0

namespace Balanced

variable {limit limit' : Nat} {front back inside tokens : List Token}

theorem mono (balanced : Balanced limit tokens) (le : limit ≤ limit') :
    Balanced limit' tokens where
  within := by
    intro part begins
    have bounds := balanced.within part begins
    omega
  closes := balanced.closes

theorem of_not_mem (limit : Nat) (opens : .leftParen ∉ tokens) (closes : .rightParen ∉ tokens) :
    Balanced limit tokens where
  within := by
    intro part begins
    have level : balance part = 0 :=
      balance_of_not_mem (fun inside => opens (begins.subset inside))
        fun inside => closes (begins.subset inside)
    omega
  closes := balance_of_not_mem opens closes

theorem singleton (limit : Nat) {t : Token} (opens : t ≠ .leftParen) (closes : t ≠ .rightParen) :
    Balanced limit [t] :=
  of_not_mem limit (fun here => opens (List.mem_singleton.mp here).symm)
    fun here => closes (List.mem_singleton.mp here).symm

theorem append (first : Balanced limit front) (second : Balanced limit back) :
    Balanced limit (front ++ back) where
  within := by
    intro part begins
    rcases Lexeme.prefix_append_cases begins with short | ⟨more, rfl, further⟩
    · exact first.within part short
    · rw [balance_append, first.closes, Int.zero_add]
      exact second.within more further
  closes := by rw [balance_append, first.closes, second.closes, Int.add_zero]

/-- Parentheses around a row take one level more. -/
theorem enclose (balanced : Balanced limit inside) :
    Balanced (1 + limit) (.leftParen :: (inside ++ [.rightParen])) where
  within := by
    intro part begins
    rcases List.prefix_cons_iff.mp begins with rfl | ⟨opened, rfl, further⟩
    · rw [balance_nil]
      omega
    · rw [balance_cons, balance_leftParen]
      rcases Lexeme.prefix_append_cases further with short | ⟨last, rfl, behind⟩
      · have bounds := balanced.within opened short
        omega
      · rw [balance_append, balanced.closes]
        rcases List.prefix_cons_iff.mp behind with rfl | ⟨none, rfl, ended⟩
        · rw [balance_nil]
          omega
        · rw [List.prefix_nil.mp ended, balance_rightParen]
          omega
  closes := by
    rw [balance_cons, balance_append, balanced.closes]
    rfl

end Balanced

namespace Derivation

/-- A row of located tokens is balanced when its values are. -/
theorem balanced_enclose {limit : Nat} {inside : List (Located Token)}
    (balanced : Balanced limit (values inside)) (opening closing : Span) :
    Balanced (1 + limit) (values (enclose opening inside closing)) := by
  have row : values (enclose opening inside closing) =
      .leftParen :: (values inside ++ [.rightParen]) := by
    rw [enclose, values, List.map_cons, List.map_append]
    rfl
  rw [row]
  exact balanced.enclose

theorem balanced_optionalToken (limit : Nat) {token : Token} (place : Option Span)
    (opens : token ≠ .leftParen) (closes : token ≠ .rightParen) :
    Balanced limit (values (optionalToken token place)) := by
  cases place with
  | none => exact .of_not_mem limit List.not_mem_nil List.not_mem_nil
  | some span => exact .singleton limit opens closes

theorem balanced_signed {limit : Nat} {tokens : List (Located Token)} (sign : Option Span)
    (balanced : Balanced limit (values tokens)) :
    Balanced limit (values (optionalToken .minus sign ++ tokens)) := by
  have before : Balanced limit (values (optionalToken .minus sign)) :=
    balanced_optionalToken limit sign (by decide) (by decide)
  rw [values_append]
  exact before.append balanced

/-- A keyword in front of a row takes no level. -/
theorem balanced_behind {limit : Nat} {t : Located Token} {tokens : List (Located Token)}
    (opens : t.value ≠ .leftParen) (closes : t.value ≠ .rightParen)
    (balanced : Balanced limit (values tokens)) : Balanced limit (values (t :: tokens)) := by
  have first : Balanced limit [t.value] := .singleton limit opens closes
  exact first.append balanced

/-- A chain takes one level for what stands behind its operator. -/
theorem balanced_chain {ω : Type} {table : Token → Option ω} {first rest : List (Located Token)}
    {here further : Nat} (op : Operator table) (opens : table .leftParen = none)
    (closes : table .rightParen = none) (left : Balanced here (values first))
    (right : Balanced further (values rest)) :
    Balanced (max here (1 + further)) (values (first ++ op.token :: rest)) := by
  have known := op.known
  have noOpening : op.token.value ≠ .leftParen := by
    intro same
    rw [same, opens] at known
    cases known
  have noClosing : op.token.value ≠ .rightParen := by
    intro same
    rw [same, closes] at known
    cases known
  have behind : Balanced (max here (1 + further)) (values (op.token :: rest)) :=
    balanced_behind noOpening noClosing (right.mono (by omega))
  rw [values_append]
  exact (left.mono (Nat.le_max_left ..)).append behind

theorem Reference.balanced (r : Reference) (limit : Nat) : Balanced limit (values r.tokens) := by
  apply Balanced.of_not_mem <;> simp [Reference.tokens, values, Located.token]

mutual

theorem Sum.balanced : ∀ d : Sum, Balanced d.need (values d.tokens)
  | .last sign only => by
    rw [Sum.tokens, Sum.need]
    exact balanced_signed sign only.balanced
  | .more sign first op rest => by
    rw [Sum.tokens, Sum.need]
    exact balanced_chain op rfl rfl (balanced_signed sign first.balanced) rest.balanced

theorem Product.balanced : ∀ d : Product, Balanced d.need (values d.tokens)
  | .last only => by
    rw [Product.tokens, Product.need]
    exact only.balanced
  | .more first op rest => by
    rw [Product.tokens, Product.need]
    exact balanced_chain op rfl rfl first.balanced rest.balanced

theorem Factors.balanced : ∀ d : Factors, Balanced d.need (values d.tokens)
  | .last sign only => by
    rw [Factors.tokens, Factors.need]
    exact balanced_signed sign only.balanced
  | .more sign first op rest => by
    rw [Factors.tokens, Factors.need]
    exact balanced_chain op rfl rfl (balanced_signed sign first.balanced) rest.balanced

theorem Primary.balanced : ∀ d : Primary, Balanced d.need (values d.tokens)
  | .number numeral => by
    apply Balanced.of_not_mem <;> simp [Primary.tokens, values, Located.token]
  | .parens opening inside closing => by
    rw [Primary.tokens, Primary.need]
    exact balanced_enclose inside.balanced opening closing

end

mutual

theorem Formula.balanced : ∀ d : Formula, Balanced d.need (values d.tokens)
  | .negation keyword inside => by
    rw [Formula.tokens, Formula.need]
    have more : inside.need ≤ 1 + inside.need := Nat.le_add_left ..
    exact balanced_behind nofun nofun (inside.balanced.mono more)
  | .last only => by
    rw [Formula.tokens, Formula.need]
    exact only.balanced
  | .more first op rest => by
    rw [Formula.tokens, Formula.need]
    exact balanced_chain op rfl rfl first.balanced rest.balanced

theorem Atom.balanced : ∀ d : Atom, Balanced d.need (values d.tokens)
  | .parens opening inside closing => by
    rw [Atom.tokens, Atom.need]
    exact balanced_enclose inside.balanced opening closing
  | .referenceFirst left op right => by
    rw [Atom.tokens, Atom.need, values_append]
    exact (left.balanced right.need).append (balanced_behind nofun nofun right.balanced)
  | .valueFirst left _ op right => by
    rw [Atom.tokens, Atom.need, values_append]
    exact left.balanced.append (balanced_behind nofun nofun (right.balanced left.need))

end

theorem balanced_filterTokens (filter : Option (Span × Formula)) :
    Balanced (filterNeed filter) (values (filterTokens filter)) := by
  cases filter with
  | none => exact .of_not_mem 0 List.not_mem_nil List.not_mem_nil
  | some filter => exact balanced_behind nofun nofun filter.2.balanced

mutual

theorem Relations.balanced : ∀ d : Relations, Balanced d.need (values d.tokens)
  | .last only => by
    rw [Relations.tokens, Relations.need]
    exact only.balanced
  | .more first op rest => by
    rw [Relations.tokens, Relations.need]
    exact balanced_chain op rfl rfl first.balanced rest.balanced

theorem Operand.balanced : ∀ d : Operand, Balanced d.need (values d.tokens)
  | .mk term plus filter => by
    have repeated : Balanced term.need (values (optionalToken .plus plus)) :=
      balanced_optionalToken term.need plus nofun nofun
    have inner := (term.balanced.append repeated).mono (Nat.le_max_left _ (filterNeed filter))
    have condition := (balanced_filterTokens filter).mono (Nat.le_max_right term.need _)
    rw [Operand.tokens, Operand.need, values_append, values_append]
    exact inner.append condition

theorem Term.balanced : ∀ d : Term, Balanced d.need (values d.tokens)
  | .parens opening inside closing => by
    rw [Term.tokens, Term.need]
    exact balanced_enclose inside.balanced opening closing
  | .binding relation keyword name => by
    apply Balanced.of_not_mem <;> simp [Term.tokens, values, Located.token]

end

end Derivation

namespace Lexeme

/-- Where no parenthesis is closed that is not open, counting never stops at zero. By induction on the
tokens, from any depth. -/
theorem foldl_depthBehind_of_balance {tokens : List Token} {depth : Nat}
    (opened : ∀ front, front <+: tokens → 0 ≤ (depth : Int) + balance front) :
    ((tokens.foldl depthBehind depth : Nat) : Int) = depth + balance tokens := by
  induction tokens generalizing depth with
  | nil => rw [List.foldl_nil, balance_nil, Int.add_zero]
  | cons t rest ih =>
    have start : 0 ≤ (depth : Int) + balance [t] :=
      opened [t] (List.cons_prefix_cons.mpr ⟨rfl, List.nil_prefix⟩)
    have step : (depthBehind depth t : Int) = depth + balance [t] := by
      cases t with
      | rightParen =>
        rw [balance_rightParen] at start ⊢
        rw [depthBehind]
        omega
      | leftParen => rfl
      | _ => exact (Int.add_zero _).symm
    have onward : ∀ front, front <+: rest → 0 ≤ (depthBehind depth t : Int) + balance front := by
      intro front begins
      have whole := opened (t :: front) (List.cons_prefix_cons.mpr ⟨rfl, begins⟩)
      rw [balance_cons] at whole
      omega
    rw [List.foldl_cons, ih onward, step, balance_cons t rest]
    omega

/-- Trivia open and close nothing. -/
theorem openDepth_eq_foldl_filter (pieces : List Piece) :
    openDepth pieces = ((pieces.map (·.token)).filter Token.isSignificant).foldl depthBehind 0 := by
  have trivial : (fun depth t => if Token.isSignificant t then depthBehind depth t else depth) =
      depthBehind := by
    funext depth t
    cases t <;> rfl
  rw [List.foldl_filter, trivial, List.foldl_map]
  rfl

/-- Only an opening parenthesis is refused for its depth. -/
theorem Refuses.of_nestingTooDeep {before : List Piece} {left : List Char} {depth : Nat}
    (refuses : Refuses before left (.nestingTooDeep depth)) :
    (∃ rest, left = '(' :: rest) ∧ 128 < openDepth before + 1 := by
  cases refuses with
  | @exceeding text rest _ _ longest exceeds =>
    cases exceeds with
    | size large => cases large
    | nesting opens deep =>
      rw [opens] at longest
      cases longest.fits.respells with
      | same same => exact ⟨⟨rest, by rw [← same]; rfl⟩, deep⟩
      | keyword _ keyword => exact absurd keyword (by decide)

end Lexeme

open Lexeme

theorem TokenStream.spelling_eq_content (s : TokenStream) :
    s.spelling = values s.content ++ [.endOfInput] := by
  rw [spelling, s.significant_eq, values_append]
  rfl

/-- The tokens before the end of a tokenized source are the significant ones of its pieces. -/
theorem values_content_of_tokens {stream : TokenStream} {pieces : List Piece} {finish : Span}
    (tokens : stream.tokens = placed .start pieces ++ [⟨.endOfInput, finish⟩]) :
    values stream.content = (pieces.map (·.token)).filter Token.isSignificant := by
  have row : values stream.content ++ [.endOfInput] =
      (pieces.map (·.token)).filter Token.isSignificant ++ [.endOfInput] := by
    rw [← stream.spelling_eq_content, spelling_eq_filter, tokens, values_append, values_placed,
      List.filter_append]
    rfl
  exact List.append_cancel_right row

/-- A parsed stream is balanced within the limit of nesting. -/
theorem balanced_of_parsed {name : String} {stream : TokenStream} {tree : Query}
    (parsed : parseQuery name stream = .ok tree) : Balanced 128 stream.spelling := by
  obtain ⟨e, ended⟩ := Session.parseQuery_eq_ok_iff.mp parsed
  obtain ⟨d, fits, spells, _⟩ := Grammar.exists_derivation ended
  have content : Balanced 128 (values stream.content) := by
    rw [← spells]
    exact d.balanced.mono fits
  have finish : Balanced 128 [.endOfInput] := .singleton 128 (by decide) (by decide)
  rw [stream.spelling_eq_content]
  exact content.append finish

/-- In a parsed stream at most 128 parentheses are open at a time, none is closed that is not open, and
in the end all are closed. So where the tokenizer refuses a source for its nesting, no stream is parsed
that begins with the tokens before the fault and the parenthesis that is refused. -/
theorem parentheses_within_nesting :
    (∀ name stream tree, parseQuery name stream = .ok tree →
      (∀ front, front <+: stream.spelling → 0 ≤ balance front ∧ balance front ≤ 128) ∧
        balance stream.spelling = 0) ∧
    ∀ counting source e depth, (tokenize counting source).outcome = .error e →
      e.fault = .nestingTooDeep depth →
      ∃ front rest scanned, source.content = front ++ '(' :: rest ∧
        e.position = Position.start.advanceOver front ∧
        (tokenize counting { source with content := front }).outcome = .ok scanned ∧
        ∀ stream : TokenStream, values scanned.content ++ [.leftParen] <+: stream.spelling →
          ∀ name tree, parseQuery name stream ≠ .ok tree := by
  constructor
  · intro name stream tree parsed
    have balanced := balanced_of_parsed parsed
    exact ⟨balanced.within, balanced.closes⟩
  · intro counting source e depth failed tooDeep
    obtain ⟨pieces, left, decomposes, place, refuses⟩ := exists_pieces_of_error failed
    rw [tooDeep] at refuses
    obtain ⟨⟨rest, rfl⟩, deep⟩ := refuses.of_nestingTooDeep
    have all : Decomposes source.content (pieces ++ []) ('(' :: rest) := by rwa [List.append_nil]
    obtain ⟨scanned, accepted, tokens⟩ := exists_stream_before_cut counting source.name all
    refine ⟨covered pieces, rest, scanned, decomposes.covers.symm, place, accepted, ?_⟩
    intro stream begins name tree parsed
    have balanced := balanced_of_parsed parsed
    have opened : ∀ front, front <+: values scanned.content → 0 ≤ ((0 : Nat) : Int) + balance front := by
      intro front part
      have whole := (part.trans (List.prefix_append ..)).trans begins
      have bounds := balanced.within front whole
      omega
    have counted := foldl_depthBehind_of_balance opened
    rw [values_content_of_tokens tokens, ← openDepth_eq_foldl_filter,
      ← values_content_of_tokens tokens] at counted
    have bound := (balanced.within _ begins).2
    rw [balance_append, balance_leftParen] at bound
    omega

namespace Derivation

/-- `A as x` in `n` pairs of parentheses. -/
def enclosed : Nat → Relations
  | 0 => .last (.mk anyBinding none none)
  | n + 1 => .last (.mk (.parens .origin (enclosed n) .origin) none none)

theorem need_enclosed (n : Nat) : (enclosed n).need = n := by
  induction n with
  | zero => rfl
  | succ n ih =>
    have levels : (enclosed (n + 1)).need = max (1 + (enclosed n).need) 0 := rfl
    omega

theorem opens_enclosed (n : Nat) :
    List.replicate n .leftParen <+: values (enclosed n).tokens := by
  induction n with
  | zero => exact List.nil_prefix
  | succ n ih =>
    have tokens : values (enclosed (n + 1)).tokens =
        .leftParen :: (values (enclosed n).tokens ++ [.rightParen]) := by
      simp [enclosed, Relations.tokens, Operand.tokens, Term.tokens, enclose, optionalToken,
        filterTokens, values]
    rw [tokens, List.replicate_succ, List.cons_prefix_cons]
    exact ⟨rfl, List.prefix_append_of_prefix ih⟩

end Derivation

/-- A source of opening parentheses only. -/
def unclosed (n : Nat) : SourceText := ⟨"q", List.replicate n '('⟩

theorem byteCount_unclosed (n : Nat) : byteCount (unclosed n).content = n := by
  induction n with
  | zero => rfl
  | succ n ih =>
    have one : '('.utf8Size = 1 := rfl
    have longer : byteCount (unclosed (n + 1)).content =
        '('.utf8Size + byteCount (unclosed n).content := rfl
    omega

/-- What lies before a place in such a source is such a source again. -/
theorem eq_unclosed_of_append {n : Nat} {front back : List Char}
    (row : (unclosed n).content = front ++ back) : front = (unclosed (byteCount front)).content := by
  have opened : front = (unclosed front.length).content :=
    (List.append_eq_replicate_iff.mp row.symm).2.1
  have size := byteCount_unclosed front.length
  rw [← opened] at size
  rwa [size]

theorem unclosed_refused : (tokenize ⟨true, true⟩ (unclosed 129)).outcome =
    .error ⟨.nestingTooDeep 129, ⟨128, 1, 129⟩⟩ := by
  have scanned : (scan ⟨true, true⟩ (unclosed 129).content).outcome =
      .error ⟨.nestingTooDeep 129, ⟨128, 1, 129⟩⟩ := by decide +kernel
  simp only [tokenize, scanned, Except.bind]

theorem enclosed_within_nesting :
    (∃ stream tree, parseQuery "q" stream = .ok tree ∧
      List.replicate 128 .leftParen <+: stream.spelling ∧ balance stream.spelling = 0) ∧
    ∃ e scanned stream, (tokenize ⟨true, true⟩ (unclosed 129)).outcome = .error e ∧
      e.fault = .nestingTooDeep 129 ∧
      (tokenize ⟨true, true⟩ (unclosed 128)).outcome = .ok scanned ∧
      values scanned.content ++ [.leftParen] <+: stream.spelling ∧
      ∀ name tree, parseQuery name stream ≠ .ok tree := by
  obtain ⟨balanced, refused⟩ := parentheses_within_nesting
  have spells (n : Nat) : ∃ stream : TokenStream, stream.content = (Derivation.enclosed n).tokens ∧
      List.replicate n .leftParen <+: stream.spelling := by
    obtain ⟨stream, _, content⟩ := TokenStream.exists_of_derivation (Derivation.enclosed n) .origin
    refine ⟨stream, content, ?_⟩
    rw [stream.spelling_eq_content, content]
    exact List.prefix_append_of_prefix (Derivation.opens_enclosed n)
  constructor
  · obtain ⟨stream, content, opens⟩ := spells 128
    obtain ⟨e, ended⟩ := Grammar.exists_run (Derivation.enclosed 128) content.symm
      (Nat.le_of_eq (Derivation.need_enclosed 128))
    have parsed : parseQuery "q" stream = .ok (Derivation.enclosed 128).tree :=
      Session.parseQuery_eq_ok_iff.mpr ⟨e, ended⟩
    exact ⟨stream, _, parsed, opens, (balanced "q" stream _ parsed).2⟩
  · obtain ⟨stream, _, opens⟩ := spells 129
    obtain ⟨front, rest, scanned, row, place, accepted, unparsed⟩ :=
      refused ⟨true, true⟩ _ _ 129 unclosed_refused rfl
    have size : byteCount front = 128 := by
      have offset := congrArg Position.offset place
      rw [Position.offset_advanceOver] at offset
      exact (offset.trans (Nat.zero_add _)).symm
    have before := eq_unclosed_of_append row
    rw [size] at before
    rw [before] at accepted
    have scans : ((tokenize ⟨true, true⟩ (unclosed 128)).outcome.toOption.map
        fun stream => values stream.content) = some (List.replicate 128 .leftParen) := by
      decide +kernel
    have tokens : values scanned.content ++ [.leftParen] = List.replicate 129 .leftParen := by
      have outcome : (tokenize ⟨true, true⟩ (unclosed 128)).outcome = .ok scanned := accepted
      rw [outcome] at scans
      have opened : values scanned.content = List.replicate 128 .leftParen := Option.some.inj scans
      rw [opened, ← List.replicate_succ']
    rw [← tokens] at opens
    exact ⟨_, scanned, stream, unclosed_refused, rfl, accepted, opens, unparsed stream opens⟩

end EventQuery
