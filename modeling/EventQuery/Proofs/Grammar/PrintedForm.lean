import EventQuery.Proofs.Decimal.Writing
import EventQuery.Proofs.Grammar.Conservation
import EventQuery.Proofs.Grammar.WellFormedness
import EventQuery.Proofs.Lexeme.Respelling
import EventQuery.Proofs.Query.Printing

set_option autoImplicit false

namespace EventQuery

open Lexeme
open Query (isDelimiter plain_of_any)

theorem isDelimiter_cases {c : Char} (stop : isDelimiter c = true) :
    c = '(' ∨ c = ')' ∨ c = ',' ∨ c = ' ' ∨ c = '\n' := by
  simpa [isDelimiter, or_assoc] using stop

theorem not_isDelimiter_of {holds : Char → Bool}
    (outside : ['(', ')', ',', ' ', '\n'].any holds = false) {c : Char} (inside : holds c = true) :
    isDelimiter c = false := by
  rw [Bool.eq_false_iff]
  intro stop
  have listed : c ∈ ['(', ')', ',', ' ', '\n'] := by simpa using isDelimiter_cases stop
  exact List.any_eq_false.mp outside c listed inside

theorem Lexeme.NameText.plain {text : List Char} (named : NameText text) :
    ∀ c ∈ text, isDelimiter c = false := by
  obtain ⟨start, inside⟩ := named
  intro c member
  refine not_isDelimiter_of (by decide) ((continuesName_iff c).mpr ?_)
  rcases List.mem_cons.mp member with rfl | later
  · exact .inl start
  · exact inside c later

theorem Json.NumberText.plain {text : List Char} (numeral : Json.NumberText text) :
    ∀ c ∈ text, isDelimiter c = false := by
  obtain ⟨signed, digits, _, point, power⟩ := numeral
  intro c member
  have numeric : inNumber c = true := by
    rcases List.mem_append.mp member with sign | unsigned
    · rcases signed with rfl | rfl
      · cases sign
      · rw [List.mem_singleton.mp sign]
        rfl
    · exact (Lexeme.NumberText.mk digits point power).inNumber c unsigned
  exact not_isDelimiter_of (by decide) numeric

/-- No number is written with a delimiter, and neither is what is no finite number. -/
theorem valueText_plain (x : Float) : ∀ c ∈ Decimal.valueText x, isDelimiter c = false := by
  unfold Decimal.valueText
  split
  · rename_i written
    exact (Decimal.Format.numberText_of_write? written).plain
  · split
    · exact plain_of_any (by decide)
    · split <;> exact plain_of_any (by decide)

theorem Lexeme.Pattern.plain {text : List Char} {token : Token} (fits : Pattern text token)
    (kept : token.isKept = true) : ∀ c ∈ token.text.toList, isDelimiter c = false := by
  cases fits with
  | comparison op => cases op <;> exact plain_of_any (by decide)
  | name named =>
    rcases text_ofName text with same | keyword
    · rw [same]
      exact named.plain
    · have lost : ∀ token ∈ keywordTokens, token.isKept = false := by decide
      rw [lost _ keyword] at kept
      cases kept
  | symbol listed =>
    have lost : ∀ symbol ∈ symbols, symbol.2.isKept = false := by decide
    have same := lost _ listed
    rw [kept] at same
    cases same
  | _ => cases kept

/-- The tokens of a stream that leaves are made of have no delimiter in their texts. -/
theorem plain_of_tokenized {counting : Counting} {source : SourceText} {stream : TokenStream}
    (ended : (tokenize counting source).outcome = .ok stream) :
    ∀ t ∈ stream.tokens, t.value.isKept = true →
      ∀ c ∈ t.value.text.toList, isDelimiter c = false := by
  obtain ⟨pieces, decomposes, tokens, _⟩ := exists_pieces_of_ok ended
  intro t member kept
  rw [tokens] at member
  rcases List.mem_append.mp member with inside | last
  · obtain ⟨piece, there, same⟩ := placed_value t inside
    rw [same] at kept ⊢
    exact (decomposes.pattern piece there).plain kept
  · rw [List.mem_singleton.mp last] at kept
    cases kept

namespace Query

theorem arity_of_validate (q : Query) :
    q.validate = .ok () → ∀ n ∈ q.nodes, n.children.length = n.kind.arity := by
  induction q using nested_induction with
  | node kind children token value ih =>
    intro valid n inside
    rw [validate] at valid
    by_cases arity : children.length = kind.arity
    · rw [if_neg (not_not_intro arity)] at valid
      rw [nodes_node] at inside
      rcases List.mem_cons.mp inside with rfl | below
      · exact arity
      · obtain ⟨child, member, within⟩ := List.mem_flatMap.mp below
        have inner : ¬ kind.isLeaf = true := by
          intro leaf
          rw [List.length_eq_zero_iff.mp (length_of_isLeaf leaf arity)] at member
          cases member
        rw [if_neg inner, validateAll_eq_ok_iff] at valid
        obtain ⟨i, found⟩ := List.getElem?_of_mem member
        exact ih child member (valid i child found).2 n within
    · rw [if_pos arity] at valid
      cases valid

/-- A leaf that is no value holds one of the tokens that the tree keeps. -/
theorem mem_heldTokens {q n : Query} (inside : n ∈ q.nodes)
    (arity : n.children.length = n.kind.arity) (leaf : n.kind.isLeaf = true)
    (plain : n.kind ≠ .value) : n.token ∈ q.heldTokens := by
  have none : n.children.isEmpty = true := by
    rw [List.isEmpty_iff_length_eq_zero]
    exact length_of_isLeaf leaf arity
  refine List.mem_map_of_mem (List.mem_filter.mpr ⟨?_, by simpa using plain⟩)
  exact List.mem_filter.mpr ⟨inside, none⟩

theorem HoldsOwn.text_of_value {n : Query} (own : n.HoldsOwn) (kind : n.kind = .value) :
    ∃ number, n.text = String.ofList (Decimal.valueText number) := by
  obtain ⟨_, children, token, value⟩ := n
  cases kind
  obtain ⟨number, place, rfl, _⟩ := own
  exact ⟨number, rfl⟩

end Query

theorem printable_of_parseQuery {counting : Counting} {source : SourceText} {stream : TokenStream}
    (ended : (tokenize counting source).outcome = .ok stream) {name : String} {tree : Query}
    (parsed : parseQuery name stream = .ok tree) : tree.Printable := by
  obtain ⟨e, accepted⟩ := Session.parseQuery_eq_ok_iff.mp parsed
  obtain ⟨d, _, spells, rfl⟩ := Grammar.exists_derivation accepted
  have wellFormed := d.assembles.wellFormed d.tree (List.mem_singleton_self _)
  have arity := d.tree.arity_of_validate wellFormed.valid
  have held := d.assembles.accounts.held
  rw [List.flatMap_singleton] at held
  refine ⟨arity, fun n inside leaf => ?_⟩
  by_cases value : n.kind = .value
  · obtain ⟨number, text⟩ := (wellFormed.holds n inside).text_of_value value
    rw [text, String.toList_ofList]
    exact valueText_plain number
  · have token := Query.mem_heldTokens inside (arity n inside) leaf value
    rw [held] at token
    obtain ⟨t, kept, same⟩ := List.mem_map.mp token
    obtain ⟨member, isKept⟩ := List.mem_filter.mp kept
    have streamed : t ∈ stream.tokens := by
      have significant : t ∈ significantTokens stream.tokens := by
        rw [stream.significant_eq, ← spells]
        exact List.mem_append_left _ member
      exact (List.mem_filter.mp significant).1
    rw [Query.text, Query.text?, ← same]
    exact plain_of_tokenized ended t streamed isKept

/-- Two queries, of whatever sources, have the same text on one line if and only if they have the
same indented text, and that is if and only if their trees have the same kinds, children and texts
of leaves. -/
theorem printed_forms_identify (counting counting' : Counting) (source source' : SourceText)
    (stream stream' : TokenStream) (q r : Query)
    (tokenized : (tokenize counting source).outcome = .ok stream)
    (tokenized' : (tokenize counting' source').outcome = .ok stream')
    (parsed : parseQuery source.name stream = .ok q)
    (parsed' : parseQuery source'.name stream' = .ok r) :
    (q.inline = r.inline ↔ q.indented = r.indented) ∧ (q.inline = r.inline ↔ q.SameForm r) := by
  have printable := printable_of_parseQuery tokenized parsed
  have printable' := printable_of_parseQuery tokenized' parsed'
  have one := Query.inline_eq_iff printable printable'
  have all := Query.indented_eq_iff printable printable'
  exact ⟨one.trans all.symm, one⟩

/-- The query of a source. -/
def SourceText.query? (source : SourceText) : Option Query :=
  (tokenize ⟨true, true⟩ source).outcome.toOption.bind fun stream =>
    (parseQuery source.name stream).toOption

theorem exists_of_query? {source : SourceText} {tree : Query} (found : source.query? = some tree) :
    ∃ stream, (tokenize ⟨true, true⟩ source).outcome = .ok stream ∧
      parseQuery source.name stream = .ok tree := by
  rw [SourceText.query?] at found
  cases ended : (tokenize ⟨true, true⟩ source).outcome with
  | error e =>
    rw [ended] at found
    cases found
  | ok stream =>
    rw [ended] at found
    change (parseQuery source.name stream).toOption = some tree at found
    cases parsed : parseQuery source.name stream with
    | error e =>
      rw [parsed] at found
      cases found
    | ok query =>
      rw [parsed] at found
      exact ⟨stream, rfl, parsed.trans (congrArg _ (Option.some.inj found))⟩

/-- A query in parentheses, whose number is a quotient. -/
def ratioFilter : SourceText := .ofString "p" "(A AS x) filter (x.p>3/2)"

/-- The same query without parentheses and with a number that is written down. -/
def decimalFilter : SourceText := .ofString "q" "A as x FILTER x.p > 1.50"

def filterLine : String :=
  "FILTER(ASSIGN(RELATION(A), VARIABLE(x)), " ++
    "PREDICATE(VAR_PROP(VARIABLE(x), PROPERTY(p)), PRED_OP(>), VALUE(1.5)))"

theorem ratioFilter_identified :
    ∃ stream stream' q r, (tokenize ⟨true, true⟩ ratioFilter).outcome = .ok stream ∧
      (tokenize ⟨true, true⟩ decimalFilter).outcome = .ok stream' ∧
      parseQuery "p" stream = .ok q ∧ parseQuery "q" stream' = .ok r ∧
      q.inline = filterLine ∧ r.inline = filterLine ∧ q.indented = r.indented ∧ q.SameForm r := by
  obtain ⟨q, found, line⟩ : ∃ q, ratioFilter.query? = some q ∧ q.inline = filterLine :=
    Option.map_eq_some_iff.mp (by decide +kernel)
  obtain ⟨r, found', line'⟩ : ∃ r, decimalFilter.query? = some r ∧ r.inline = filterLine :=
    Option.map_eq_some_iff.mp (by decide +kernel)
  obtain ⟨stream, tokenized, parsed⟩ := exists_of_query? found
  obtain ⟨stream', tokenized', parsed'⟩ := exists_of_query? found'
  obtain ⟨texts, form⟩ := printed_forms_identify ⟨true, true⟩ ⟨true, true⟩ ratioFilter decimalFilter
    stream stream' q r tokenized tokenized' parsed parsed'
  have same : q.inline = r.inline := line.trans line'.symm
  exact ⟨stream, stream', q, r, tokenized, tokenized', parsed, parsed', line, line',
    texts.mp same, form.mp same⟩

end EventQuery
