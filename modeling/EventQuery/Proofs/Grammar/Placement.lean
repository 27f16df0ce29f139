import EventQuery.Proofs.Grammar.Boundary
import EventQuery.Proofs.Grammar.Conservation
import EventQuery.Proofs.Lexeme.Tokenization
import EventQuery.Proofs.Source.Order

set_option autoImplicit false

namespace EventQuery

open Lexeme

theorem inOrder_placed (p : Position) (pieces : List Piece) :
    InOrder p ((placed p pieces).map (·.span)) (p.advanceOver (covered pieces)) := by
  induction pieces generalizing p with
  | nil => exact .refl p
  | cons piece rest ih =>
    rw [covered_cons, Position.advanceOver_append]
    exact ⟨.refl p, .advanceOver p piece.text, ih _⟩

namespace TokenStream

/-- A stream whose tokens are placed by the texts that they cover. -/
inductive Placed (s : TokenStream) : Prop where
  | scanned (counting : Counting) (source : SourceText)
      (ended : (tokenize counting source).outcome = .ok s)
  | built (pieces : List Piece)
      (ended : (pieces.foldl (fun b piece => b.push piece.token piece.text)
        StreamBuilder.empty).build = .ok s)

theorem Placed.exists_pieces {s : TokenStream} (known : s.Placed) :
    ∃ pieces, s.tokens = placed .start pieces := by
  cases known with
  | scanned counting source ended =>
    obtain ⟨pieces, decomposes, tokens, _⟩ := exists_pieces_of_ok ended
    have whole : covered pieces = source.content := by
      rw [← decomposes.covers, List.append_nil]
    refine ⟨pieces ++ [⟨[], .endOfInput⟩], ?_⟩
    rw [tokens, placed_append, whole]
    rfl
  | built pieces ended =>
    refine ⟨pieces, ?_⟩
    rw [(of_ofTokens ended).1, foldl_push]
    rfl

theorem Placed.inOrder {s : TokenStream} (known : s.Placed) :
    ∃ q, InOrder .start ((significantTokens s.tokens).map (·.span)) q := by
  obtain ⟨pieces, tokens⟩ := known.exists_pieces
  rw [tokens]
  exact ⟨_, (inOrder_placed .start pieces).sublist (List.filter_sublist.map _)⟩

end TokenStream

namespace Query

/-- All nodes of the tree lie in the range. -/
def LiesIn (q : Query) (range : Span) : Prop :=
  ∀ n ∈ q.nodes, ∃ s, n.span? = some s ∧
    range.start.offset ≤ s.start.offset ∧ s.stop.offset ≤ range.stop.offset

/-- The children of a node lie one behind the other, and the node covers the range from the first to
the last of them, with all nodes below it. -/
structure CoversChildren (q : Query) (first : Span) (rest : List Span) : Prop where
  spans : q.children.map span? = (first :: rest).map some
  ordered : (first :: rest).Pairwise fun s t => s.stop.offset ≤ t.start.offset
  span : q.span? = some ⟨first.start, (rest.getLastD first).stop⟩
  contains : q.LiesIn ⟨first.start, (rest.getLastD first).stop⟩

/-- The tree lies in the range, and all its nodes cover their children. -/
structure Faithful (q : Query) (range : Span) : Prop where
  inside : q.LiesIn range
  branches : ∀ n ∈ q.nodes, n.kind.isLeaf = false → ∃ first rest, n.CoversChildren first rest

/-- The trees lie one behind the other between `p` and `q`. -/
structure Stands (p : Position) (trees : List Query) (q : Position) (ranges : List Span) :
    Prop where
  order : InOrder p ranges q
  spans : trees.map span? = ranges.map some
  faithful : ∀ tree ∈ trees, ∃ range ∈ ranges, tree.Faithful range

variable {p q r : Position} {trees others : List Query} {ranges more : List Span}

theorem LiesIn.mono {tree : Query} {inner outer : Span} (lies : tree.LiesIn inner)
    (starts : outer.start.offset ≤ inner.start.offset)
    (stops : inner.stop.offset ≤ outer.stop.offset) : tree.LiesIn outer := by
  intro n member
  obtain ⟨s, found, first, last⟩ := lies n member
  exact ⟨s, found, by omega, by omega⟩

theorem spanOfAll_of_inOrder :
    ∀ {ranges : List Span} {trees : List Query} {s : Span} {p q : Position},
      trees.map span? = ranges.map some → InOrder p (s :: ranges) q →
        spanOfAll (some s) trees = some ⟨s.start, (ranges.getLastD s).stop⟩
  | [], [], s, _, _, _, _ => by
    rw [spanOfAll, List.getLastD_nil]
  | t :: ranges, tree :: trees, s, p, q, spans, order => by
    obtain ⟨here, later⟩ := List.cons_eq_cons.mp spans
    obtain ⟨first, proper, between, inner, behind⟩ := order
    have merged : s.merge t = ⟨s.start, t.stop⟩ :=
      Span.merge_of_noLater (proper.trans between) (between.trans inner)
    have joined : InOrder p (⟨s.start, t.stop⟩ :: ranges) q :=
      ⟨first, (proper.trans between).trans inner, behind⟩
    have rest := spanOfAll_of_inOrder later joined
    have step : spanOfAll (some s) (tree :: trees) = spanOfAll (some (s.merge t)) trees := by
      simp only [spanOfAll, here]
    rw [step, merged, rest, List.getLastD_cons]
    cases ranges <;> rfl

namespace Stands

theorem nil (order : p.NoLater q) : Stands p [] q [] :=
  ⟨order, rfl, fun _ absent => by cases absent⟩

theorem append (first : Stands p trees q ranges) (second : Stands q others r more) :
    Stands p (trees ++ others) r (ranges ++ more) := by
  refine ⟨inOrder_append.mpr ⟨q, first.order, second.order⟩, ?_, ?_⟩
  · rw [List.map_append, List.map_append, first.spans, second.spans]
  · intro tree member
    rcases List.mem_append.mp member with earlier | later
    · obtain ⟨range, found, faithful⟩ := first.faithful tree earlier
      exact ⟨range, List.mem_append_left _ found, faithful⟩
    · obtain ⟨range, found, faithful⟩ := second.faithful tree later
      exact ⟨range, List.mem_append_right _ found, faithful⟩

/-- A node without children lies where its token does. -/
theorem single {kind : Kind} {token : Located Token} {value : Option Float}
    (isLeaf : kind.isLeaf = true) (order : InOrder p [token.span] q) :
    Stands p [.node kind [] (some token) value] q [token.span] := by
  have nodes : (Query.node kind [] (some token) value).nodes =
      [.node kind [] (some token) value] := rfl
  have span : (Query.node kind [] (some token) value).span? = some token.span := by
    rw [span?]
  refine ⟨order, ?_, ?_⟩
  · rw [List.map_singleton, span, List.map_singleton]
  · rw [List.forall_mem_singleton]
    refine ⟨token.span, List.mem_singleton_self _, ?_, ?_⟩
    · rw [LiesIn, nodes, List.forall_mem_singleton]
      exact ⟨token.span, span, Nat.le_refl _, Nat.le_refl _⟩
    · rw [nodes, List.forall_mem_singleton]
      intro branch
      rw [Query.kind, isLeaf] at branch
      cases branch

theorem coversChildren (kind : Kind) {first : Span} {rest : List Span}
    (stands : Stands p trees q (first :: rest)) :
    (branch kind trees).CoversChildren first rest := by
  obtain ⟨order, spans, faithful⟩ := stands
  have span : (branch kind trees).span? = some ⟨first.start, (rest.getLastD first).stop⟩ := by
    cases trees with
    | nil => cases spans
    | cons tree trees =>
      obtain ⟨here, later⟩ := List.cons_eq_cons.mp spans
      rw [branch, span?, spanOfAll, here]
      exact spanOfAll_of_inOrder later order
  refine ⟨spans, order.pairwise, span, ?_⟩
  rw [LiesIn, forall_nodes_branch]
  refine ⟨⟨_, span, Nat.le_refl _, Nat.le_refl _⟩, ?_⟩
  intro child member
  obtain ⟨range, listed, faithful⟩ := faithful child member
  -- The range between `p` and `q` may be wider than the children are: only a tight one is covered.
  obtain ⟨starts, _, stops⟩ := order.tight.2.1.mem listed
  exact faithful.inside.mono starts.offset_le stops.offset_le

theorem join (kind : Kind) (present : trees ≠ []) (stands : Stands p trees q ranges) :
    ∃ range, Stands p [.branch kind trees] q [range] := by
  obtain ⟨first, rest, rfl⟩ : ∃ first rest, ranges = first :: rest := by
    cases ranges with
    | nil => exact absurd (List.map_eq_nil_iff.mp stands.spans) present
    | cons first rest => exact ⟨first, rest, rfl⟩
  have covers := stands.coversChildren kind
  refine ⟨⟨first.start, (rest.getLastD first).stop⟩, stands.order.whole, ?_, ?_⟩
  · rw [List.map_singleton, covers.span, List.map_singleton]
  · rw [List.forall_mem_singleton]
    refine ⟨_, List.mem_singleton_self _, covers.contains, ?_⟩
    rw [forall_nodes_branch]
    refine ⟨fun _ => ⟨first, rest, covers⟩, ?_⟩
    intro child member
    obtain ⟨range, _, faithful⟩ := stands.faithful child member
    exact faithful.branches

/-- Leaves made of the outer two of three tokens. -/
theorem outer (kind left right : Kind) {t u v : Located Token}
    (first : left.isLeaf = true) (last : right.isLeaf = true)
    (order : InOrder p ([t, u, v].map (·.span)) q) :
    ∃ range, Stands p [.branch kind [.leaf left t, .leaf right v]] q [range] := by
  have part : List.Sublist [t.span, v.span] ([t, u, v].map (·.span)) := by simp
  have kept : InOrder p ([t.span] ++ [v.span]) q := order.sublist part
  obtain ⟨m, before, behind⟩ := inOrder_append.mp kept
  have leaves := (single first before : Stands p [.leaf left t] m _).append
    (single last behind : Stands m [.leaf right v] q _)
  exact leaves.join kind (List.cons_ne_nil _ _)

/-- The two sides of a comparison, with the comparison between them. -/
theorem predicate {left right : Query} {op : Located Token} {m : Position}
    {before behind : List Span}
    (first : Stands p [left] m before) (order : InOrder m [op.span] r)
    (second : Stands r [right] q behind) :
    ∃ range, Stands p [.ofPredicate left op right] q [range] := by
  have middle : Stands m [.leaf .comparison op] r [op.span] := single rfl order
  exact (first.append (middle.append second)).join .predicate (List.cons_ne_nil _ _)

end Stands

end Query

namespace Derivation

open Query (Stands)

variable {p q : Position}

theorem extent_of_inOrder {t : Located Token} {rest : List (Located Token)}
    (order : InOrder p ((t :: rest).map (·.span)) q) :
    extent (t :: rest) = ⟨t.span.start, (rest.getLastD t).span.stop⟩ := by
  have merged := order.merge_getLastD
  rwa [List.getLastD_map] at merged

/-- Arithmetic lies from the first to the last of its tokens. -/
theorem Sum.span?_tree (d : Sum) (order : InOrder p (d.tokens.map (·.span)) q) :
    ∃ first rest, d.tokens = first :: rest ∧
      d.tree.span? = some ⟨first.span.start, (rest.getLastD first).span.stop⟩ := by
  obtain ⟨first, rest, spelled, -⟩ := d.tokens_eq_cons
  refine ⟨first, rest, spelled, ?_⟩
  rw [spelled] at order
  rw [Sum.tree, Query.ofValue, Query.span?, spelled, extent_of_inOrder order]

theorem Sum.stands (d : Sum) (order : InOrder p (d.tokens.map (·.span)) q) :
    Stands p [d.tree] q [extent d.tokens] := by
  obtain ⟨first, rest, spelled, -⟩ := d.tokens_eq_cons
  have place : InOrder p [extent d.tokens] q := by
    rw [spelled] at order
    have whole := order.whole
    rw [List.getLastD_map] at whole
    rwa [spelled, extent_of_inOrder order]
  exact Stands.single rfl place

/-- Trees that are put together from tokens in order lie in the place of these. -/
theorem Assembles.stands {tokens : List (Located Token)} {trees : List Query} {sums : List Sum}
    (assembles : Assembles tokens trees sums) :
    ∀ {p q : Position}, InOrder p (tokens.map (·.span)) q → ∃ ranges, Stands p trees q ranges := by
  -- Each part lies between places of its own, so the places are general in the induction.
  induction assembles with
  | nil => exact fun order => ⟨[], Stands.nil order⟩
  | append _ _ first second =>
    intro p q order
    rw [List.map_append] at order
    obtain ⟨m, before, behind⟩ := inOrder_append.mp order
    obtain ⟨ranges, left⟩ := first before
    obtain ⟨more, right⟩ := second behind
    exact ⟨ranges ++ more, left.append right⟩
  | skip _ => exact fun order => ⟨[], Stands.nil order.noLater⟩
  | binding relation keyword name =>
    intro p q order
    obtain ⟨range, stands⟩ := Stands.outer .binding .relationName .variableName rfl rfl order
    exact ⟨[range], stands⟩
  | referenceFirst left op right =>
    intro p q order
    rw [List.map_append, List.map_cons] at order
    obtain ⟨m, before, here, proper, behind⟩ := inOrder_append.mp order
    obtain ⟨range, reference⟩ := Stands.outer .reference .variableName .propertyName rfl rfl before
    obtain ⟨whole, stands⟩ := reference.predicate ⟨here, proper, .refl _⟩ (right.stands behind)
    exact ⟨[whole], stands⟩
  | valueFirst left op right =>
    intro p q order
    rw [List.map_append, List.map_cons] at order
    obtain ⟨m, before, here, proper, behind⟩ := inOrder_append.mp order
    obtain ⟨range, reference⟩ := Stands.outer .reference .variableName .propertyName rfl rfl behind
    obtain ⟨whole, stands⟩ := (left.stands before).predicate ⟨here, proper, .refl _⟩ reference
    exact ⟨[whole], stands⟩
  | join joins _ inside =>
    intro p q order
    obtain ⟨ranges, below⟩ := inside order
    obtain ⟨range, stands⟩ := below.join _ joins.ne_nil
    exact ⟨[range], stands⟩

theorem Assembles.infix_of_mem {tokens : List (Located Token)} {trees : List Query}
    {sums : List Sum} (assembles : Assembles tokens trees sums) :
    ∀ sum ∈ sums, sum.tokens <:+: tokens := by
  induction assembles with
  | nil => exact fun _ absent => by cases absent
  | @append front back _ _ _ _ _ _ first second =>
    intro sum member
    rcases List.mem_append.mp member with earlier | later
    · exact (first sum earlier).trans (List.prefix_append front back).isInfix
    · exact (second sum later).trans (List.suffix_append front back).isInfix
  | skip _ => exact fun _ absent => by cases absent
  | binding _ _ _ => exact fun _ absent => by cases absent
  | referenceFirst left op right =>
    rw [List.forall_mem_singleton, ← List.singleton_append, ← List.append_assoc]
    exact (List.suffix_append _ right.tokens).isInfix
  | valueFirst left op right =>
    rw [List.forall_mem_singleton]
    exact (List.prefix_append left.tokens _).isInfix
  | join _ _ inside => exact inside

end Derivation

/-- In a stream whose tokens are placed by their texts, every node of the tree covers exactly the
range from the first to the last of its children, which lie one behind the other, and every value
the range from the first to the last token of the arithmetic that it comes from. -/
theorem parseQuery_faithful (sourceName : String) (s : TokenStream) (known : s.Placed)
    (tree : Query) (parsed : parseQuery sourceName s = .ok tree) :
    (∀ n ∈ tree.nodes, n.kind.isLeaf = false → ∃ first rest, n.CoversChildren first rest) ∧
      ∃ d : Derivation.Relations,
        significantTokens s.tokens = d.tokens ++ [⟨.endOfInput, s.finish⟩] ∧ d.tree = tree ∧
          tree.valueLeaves = d.sums.map Derivation.Sum.tree ∧
          ∀ sum ∈ d.sums, sum.tokens <:+: significantTokens s.tokens ∧
            ∃ first rest, sum.tokens = first :: rest ∧
              sum.tree.span? = some ⟨first.span.start, (rest.getLastD first).span.stop⟩ := by
  obtain ⟨e, ended⟩ := Session.parseQuery_eq_ok_iff.mp parsed
  obtain ⟨d, _, spells, rfl⟩ := Grammar.exists_derivation ended
  have row : significantTokens s.tokens = d.tokens ++ [⟨.endOfInput, s.finish⟩] := by
    rw [s.significant_eq, spells]
  obtain ⟨q, order⟩ := known.inOrder
  rw [row, List.map_append] at order
  obtain ⟨m, before, -⟩ := inOrder_append.mp order
  obtain ⟨ranges, stands⟩ := d.assembles.stands before
  obtain ⟨range, _, faithful⟩ := stands.faithful d.tree (List.mem_singleton_self _)
  have values := d.assembles.accounts.values
  rw [List.flatMap_singleton] at values
  refine ⟨faithful.branches, d, row, rfl, values, fun sum member => ?_⟩
  have part := d.assembles.infix_of_mem sum member
  rw [row]
  refine ⟨part.trans (List.prefix_append _ _).isInfix, ?_⟩
  obtain ⟨front, back, split⟩ := part
  rw [← split, List.map_append, List.map_append] at before
  obtain ⟨_, upTo, _⟩ := inOrder_append.mp before
  obtain ⟨_, _, here⟩ := inOrder_append.mp upTo
  exact sum.span?_tree here

/-- The range between two offsets of a first line whose characters have one byte each. -/
def lineSpan (start stop : Nat) : Span :=
  ⟨⟨start, 1, .ofNat (start + 1)⟩, ⟨stop, 1, .ofNat (stop + 1)⟩⟩

/-- `R as x filter x.p<-(0)`, where the opening parenthesis covers no text. -/
def signedPieces : List Piece :=
  [⟨['R'], .relation "R"⟩, ⟨[' '], .space⟩, ⟨['a', 's'], .asKeyword⟩, ⟨[' '], .space⟩,
    ⟨['x'], .word "x"⟩, ⟨[' '], .space⟩, ⟨['f', 'i', 'l', 't', 'e', 'r'], .filterKeyword⟩,
    ⟨[' '], .space⟩, ⟨['x'], .word "x"⟩, ⟨['.'], .dot⟩, ⟨['p'], .word "p"⟩,
    ⟨['<'], .comparison .less⟩, ⟨['-'], .minus⟩, ⟨[], .leftParen⟩, ⟨['0'], .number "0"⟩,
    ⟨[')'], .rightParen⟩, ⟨[], .endOfInput⟩]

def signedQuery : Derivation.Relations :=
  .last (.mk (.binding ⟨"R", lineSpan 0 1⟩ (lineSpan 2 4) ⟨"x", lineSpan 5 6⟩) none
    (some (lineSpan 7 13, .last (.referenceFirst
      ⟨⟨"x", lineSpan 14 15⟩, lineSpan 15 16, ⟨"p", lineSpan 16 17⟩⟩ ⟨.less, lineSpan 17 18⟩
      (.last (some (lineSpan 18 19)) (.last (.parens (lineSpan 19 19)
        (.last none (.last (.number ⟨⟨"0", lineSpan 19 20⟩, _, Derivation.zero.reads⟩)))
        (lineSpan 20 21))))))))

def signedStream : TokenStream where
  tokens := placed .start signedPieces
  source := none
  content := signedQuery.tokens
  finish := lineSpan 21 21
  significant_eq := by decide
  content_ne_end := by decide

theorem signedStream_faithful :
    signedStream.Placed ∧ parseQuery "q" signedStream = .ok signedQuery.tree ∧
      (∀ n ∈ signedQuery.tree.nodes, n.kind.isLeaf = false →
        ∃ first rest, n.CoversChildren first rest) ∧
      signedQuery.tree.span? = some (lineSpan 0 21) ∧
      signedQuery.tree.valueLeaves.map Query.span? = [some (lineSpan 18 21)] := by
  have known : signedStream.Placed := by
    refine .built signedPieces ((TokenStream.ofTokens_eq_ok_iff _ _ _).mpr ⟨?_, rfl⟩)
    rw [foldl_push]
    rfl
  have parsed : parseQuery "q" signedStream = .ok signedQuery.tree :=
    Session.parseQuery_eq_ok_iff.mpr (Grammar.exists_run signedQuery rfl (by decide))
  obtain ⟨branches, _⟩ := parseQuery_faithful "q" signedStream known signedQuery.tree parsed
  exact ⟨known, parsed, branches, rfl, rfl⟩

end EventQuery
