import EventQuery.Proofs.Grammar.Assembly
import EventQuery.Proofs.Grammar.Language
import EventQuery.Proofs.Grammar.Progress
import EventQuery.Proofs.Query.Validity

set_option autoImplicit false

namespace EventQuery

namespace Query

/-- What a node of its kind holds: names and comparisons the token that they were read from, values
a number and the text that writes it, and all other nodes nothing. -/
def HoldsOwn : Query → Prop
  | .node .relationName _ token value =>
    (∃ name place, token = some ⟨.relation name, place⟩) ∧ value = none
  | .node .variableName _ token value | .node .propertyName _ token value =>
    (∃ name place, token = some ⟨.word name, place⟩) ∧ value = none
  | .node .comparison _ token value =>
    (∃ op place, token = some ⟨.comparison op, place⟩) ∧ value = none
  | .node .value _ token value => ∃ number place,
    token = some ⟨.number (String.ofList (Decimal.valueText number)), place⟩ ∧ value = some number
  | .node _ _ token value => token = none ∧ value = none

/-- On the left of a connective is a predicate, and on the left of a sequence or an alternative is
neither of the two. -/
def GroupsRight : Query → Prop
  | .node .conjunction children _ _ | .node .disjunction children _ _ =>
    ∃ left rest, children = left :: rest ∧ left.kind = .predicate
  | .node .sequence children _ _ | .node .alternative children _ _ =>
    ∃ left rest, children = left :: rest ∧ left.kind ≠ .sequence ∧ left.kind ≠ .alternative
  | _ => True

namespace Joins

variable {kind : Kind} {children : List Query}

theorem isLeaf_eq_false (joins : Joins kind children) : kind.isLeaf = false := by
  cases joins with
  | relational either _ _ => rcases either with rfl | rfl <;> rfl
  | logical either _ _ => rcases either with rfl | rfl <;> rfl
  | _ => rfl

theorem length_eq (joins : Joins kind children) : children.length = kind.arity := by
  cases joins with
  | relational either _ _ => rcases either with rfl | rfl <;> rfl
  | logical either _ _ => rcases either with rfl | rfl <;> rfl
  | _ => rfl

theorem accepts (joins : Joins kind children) :
    ∀ i child, children[i]? = some child →
      kind.accepts (children.map Query.kind) i child.kind = true := by
  cases joins with
  | repetition relational => simp [forall_getElem?_cons, Kind.accepts, relational]
  | relational either first second =>
    rcases either with rfl | rfl <;> simp [forall_getElem?_cons, Kind.accepts, first, second]
  | filter relational formula =>
    simp [forall_getElem?_cons, Kind.accepts, relational, formula]
  | negation formula => simp [forall_getElem?_cons, Kind.accepts, formula]
  | logical either first second =>
    rcases either with rfl | rfl <;> simp [forall_getElem?_cons, Kind.accepts, first, second]

end Joins

/-- The tree is valid, and all its nodes hold what their kinds hold. -/
structure WellFormed (q : Query) : Prop where
  valid : q.validate = .ok ()
  holds : ∀ n ∈ q.nodes, n.HoldsOwn

namespace WellFormed

variable {kind : Kind} {children : List Query}

theorem branch (inner : kind.isLeaf = false) (arity : children.length = kind.arity)
    (accepted : ∀ i child, children[i]? = some child →
      kind.accepts (children.map Query.kind) i child.kind = true)
    (below : ∀ child ∈ children, child.WellFormed) :
    (Query.branch kind children).WellFormed := by
  constructor
  · rw [validate_branch_eq_ok_iff inner]
    refine ⟨arity, fun i child found => ⟨accepted i child found, ?_⟩⟩
    exact (below child (List.mem_of_getElem? found)).valid
  · rw [forall_nodes_branch]
    refine ⟨?_, fun child member => (below child member).holds⟩
    cases kind <;> first | exact ⟨rfl, rfl⟩ | cases inner

theorem leaf {token : Located Token} (isLeaf : kind.isLeaf = true) (plain : kind ≠ .value)
    (own : (Query.leaf kind token).HoldsOwn) : (Query.leaf kind token).WellFormed := by
  refine ⟨validate_leaf isLeaf plain token, ?_⟩
  rw [nodes_leaf, List.forall_mem_singleton]
  exact own

theorem ofValue (number : Float) (range : Span) : (Query.ofValue number range).WellFormed := by
  refine ⟨validate_ofValue number range, ?_⟩
  rw [nodes_ofValue, List.forall_mem_singleton]
  exact ⟨number, range, rfl, rfl⟩

theorem join (joins : Joins kind children) (below : ∀ child ∈ children, child.WellFormed) :
    (Query.branch kind children).WellFormed :=
  branch joins.isLeaf_eq_false joins.length_eq joins.accepts below

end WellFormed

end Query

namespace Derivation

theorem Reference.wellFormed (r : Reference) : r.tree.WellFormed := by
  have name : (Query.leaf .variableName (r.name.token .word)).WellFormed :=
    .leaf rfl (by decide) ⟨⟨_, _, rfl⟩, rfl⟩
  have property : (Query.leaf .propertyName (r.property.token .word)).WellFormed :=
    .leaf rfl (by decide) ⟨⟨_, _, rfl⟩, rfl⟩
  refine .branch rfl rfl (by simp [forall_getElem?_cons, Query.Kind.accepts]) ?_
  simp [name, property]

theorem predicate_wellFormed {left right : Query} (op : Located Comparison)
    (sides : Query.Kind.comparable (some left.kind) (some right.kind) = true)
    (first : left.WellFormed) (second : right.WellFormed) :
    (Query.ofPredicate left (op.token .comparison) right).WellFormed := by
  have middle : (Query.leaf .comparison (op.token .comparison)).WellFormed :=
    .leaf rfl (by decide) ⟨⟨_, _, rfl⟩, rfl⟩
  refine .branch rfl rfl (by simp [forall_getElem?_cons, Query.Kind.accepts, sides]) ?_
  simp [first, middle, second]

theorem Assembles.wellFormed {tokens : List (Located Token)} {trees : List Query}
    {sums : List Sum} (assembles : Assembles tokens trees sums) :
    ∀ tree ∈ trees, tree.WellFormed := by
  induction assembles with
  | nil => exact fun _ absent => by cases absent
  | append _ _ first second => exact List.forall_mem_append.mpr ⟨first, second⟩
  | skip _ => exact fun _ absent => by cases absent
  | binding relation keyword name =>
    have first : (Query.leaf .relationName (relation.token .relation)).WellFormed :=
      .leaf rfl (by decide) ⟨⟨_, _, rfl⟩, rfl⟩
    have last : (Query.leaf .variableName (name.token .word)).WellFormed :=
      .leaf rfl (by decide) ⟨⟨_, _, rfl⟩, rfl⟩
    rw [List.forall_mem_singleton]
    refine .branch rfl rfl (by simp [forall_getElem?_cons, Query.Kind.accepts]) ?_
    simp [first, last]
  | referenceFirst left op right =>
    rw [List.forall_mem_singleton]
    exact predicate_wellFormed op rfl left.wellFormed (.ofValue _ _)
  | valueFirst left op right =>
    rw [List.forall_mem_singleton]
    exact predicate_wellFormed op rfl (.ofValue _ _) right.wellFormed
  | join joins _ inside =>
    rw [List.forall_mem_singleton]
    exact .join joins inside

/-- No token of the row opens a parenthesis. -/
def Flat (tokens : List (Located Token)) : Prop := ∀ t ∈ tokens, t.value ≠ .leftParen

theorem Flat.left {front back : List (Located Token)} (flat : Flat (front ++ back)) : Flat front :=
  fun t member => flat t (List.mem_append_left back member)

theorem Flat.right {front back : List (Located Token)} (flat : Flat (front ++ back)) : Flat back :=
  fun t member => flat t (List.mem_append_right front member)

theorem Flat.tail {t : Located Token} {rest : List (Located Token)} (flat : Flat (t :: rest)) :
    Flat rest := fun u member => flat u (List.mem_cons_of_mem t member)

theorem not_flat_enclose {opening closing : Span} {inside : List (Located Token)} :
    ¬ Flat (enclose opening inside closing) := fun flat => flat _ List.mem_cons_self rfl

/-- Without parentheses only a predicate stands between connectives. -/
theorem Atom.kind_of_flat (d : Atom) (flat : Flat d.tokens) : d.tree.kind = .predicate := by
  cases d with
  | parens opening inside closing => exact absurd flat not_flat_enclose
  | referenceFirst left op right => rfl
  | valueFirst left bare op right => rfl

theorem Term.kind_of_flat (d : Term) (flat : Flat d.tokens) : d.tree.kind = .binding := by
  cases d with
  | parens opening inside closing => exact absurd flat not_flat_enclose
  | binding relation keyword name => rfl

/-- Without parentheses neither a sequence nor an alternative stands between colons and bars. -/
theorem Operand.kind_of_flat (d : Operand) (flat : Flat d.tokens) :
    d.tree.kind ≠ .sequence ∧ d.tree.kind ≠ .alternative := by
  obtain ⟨term, plus, filter⟩ := d
  have binding : term.tree.kind = .binding := term.kind_of_flat flat.left.left
  cases filter with
  | none =>
    cases plus with
    | none =>
      have same : (Operand.mk term none none).tree.kind = .binding := binding
      rw [same]
      decide
    | some span => exact ⟨Query.Kind.noConfusion, Query.Kind.noConfusion⟩
  | some filter => exact ⟨Query.Kind.noConfusion, Query.Kind.noConfusion⟩

theorem Reference.groupsRight (r : Reference) : ∀ n ∈ r.tree.nodes, n.GroupsRight := by
  rw [Reference.tree, Query.ofReference, Query.forall_nodes_branch]
  rw [List.forall_mem_cons, List.forall_mem_singleton, Query.nodes_leaf, Query.nodes_leaf,
    List.forall_mem_singleton, List.forall_mem_singleton]
  exact ⟨trivial, trivial, trivial⟩

theorem predicate_groupsRight {left right : Query} (op : Located Token)
    (first : ∀ n ∈ left.nodes, n.GroupsRight) (second : ∀ n ∈ right.nodes, n.GroupsRight) :
    ∀ n ∈ (Query.ofPredicate left op right).nodes, n.GroupsRight := by
  have middle : ∀ n ∈ (Query.leaf .comparison op).nodes, n.GroupsRight := by
    rw [Query.nodes_leaf, List.forall_mem_singleton]
    trivial
  rw [Query.ofPredicate, Query.forall_nodes_branch]
  refine ⟨trivial, ?_⟩
  simp only [List.forall_mem_cons]
  exact ⟨first, middle, second, fun _ absent => by cases absent⟩

theorem Sum.groupsRight (d : Sum) : ∀ n ∈ d.tree.nodes, n.GroupsRight := by
  rw [Sum.tree, Query.nodes_ofValue, List.forall_mem_singleton]
  trivial

mutual

theorem Formula.groupsRight : ∀ d : Formula, Flat d.tokens → ∀ n ∈ d.tree.nodes, n.GroupsRight
  | .negation keyword inside, flat => by
    have below := inside.groupsRight flat.tail
    rw [Formula.tree, Query.forall_nodes_branch, List.forall_mem_singleton]
    exact ⟨trivial, below⟩
  | .last only, flat => only.groupsRight flat
  | .more first op rest, flat => by
    have left := first.groupsRight flat.left
    have right := rest.groupsRight flat.right.tail
    have bare : first.tree.kind = .predicate := first.kind_of_flat flat.left
    rw [Formula.tree, Query.forall_nodes_branch, List.forall_mem_cons, List.forall_mem_singleton]
    refine ⟨?_, left, right⟩
    rcases kind_of_logical? op.known with same | same
    · rw [same]
      exact ⟨_, _, rfl, bare⟩
    · rw [same]
      exact ⟨_, _, rfl, bare⟩

theorem Atom.groupsRight : ∀ d : Atom, Flat d.tokens → ∀ n ∈ d.tree.nodes, n.GroupsRight
  | .parens _ _ _, flat => absurd flat not_flat_enclose
  | .referenceFirst left op right, _ =>
    predicate_groupsRight (op.token .comparison) left.groupsRight right.groupsRight
  | .valueFirst left _ op right, _ =>
    predicate_groupsRight (op.token .comparison) left.groupsRight right.groupsRight

end

section Operands

variable {inner : Query} (below : ∀ n ∈ inner.nodes, n.GroupsRight)

include below

theorem withPlus_groupsRight (plus : Option Span) :
    ∀ n ∈ (withPlus plus inner).nodes, n.GroupsRight := by
  cases plus with
  | none => exact below
  | some span =>
    have whole : ∀ n ∈ (Query.branch .repetition [inner]).nodes, n.GroupsRight := by
      rw [Query.forall_nodes_branch, List.forall_mem_singleton]
      exact ⟨trivial, below⟩
    exact whole

theorem withFilter_groupsRight (filter : Option (Span × Formula))
    (flat : Flat (filterTokens filter)) :
    ∀ n ∈ (withFilter filter inner).nodes, n.GroupsRight := by
  cases filter with
  | none => exact below
  | some filter =>
    obtain ⟨keyword, formula⟩ := filter
    have condition := formula.groupsRight flat.tail
    rw [withFilter, Query.forall_nodes_branch, List.forall_mem_cons, List.forall_mem_singleton]
    exact ⟨trivial, below, condition⟩

end Operands

mutual

/-- On the left of an operator stands one operand, which groups nothing without parentheses. -/
theorem Relations.groupsRight :
    ∀ d : Relations, Flat d.tokens → ∀ n ∈ d.tree.nodes, n.GroupsRight
  | .last only, flat => only.groupsRight flat
  | .more first op rest, flat => by
    have left := first.groupsRight flat.left
    have right := rest.groupsRight flat.right.tail
    have bare := first.kind_of_flat flat.left
    rw [Relations.tree, Query.forall_nodes_branch, List.forall_mem_cons,
      List.forall_mem_singleton]
    refine ⟨?_, left, right⟩
    rcases kind_of_relational? op.known with same | same
    · rw [same]
      exact ⟨_, _, rfl, bare⟩
    · rw [same]
      exact ⟨_, _, rfl, bare⟩

theorem Operand.groupsRight :
    ∀ d : Operand, Flat d.tokens → ∀ n ∈ d.tree.nodes, n.GroupsRight
  | .mk term plus filter, flat =>
    withFilter_groupsRight (withPlus_groupsRight (term.groupsRight flat.left.left) plus) filter
      flat.right

theorem Term.groupsRight : ∀ d : Term, Flat d.tokens → ∀ n ∈ d.tree.nodes, n.GroupsRight
  | .parens _ _ _, flat => absurd flat not_flat_enclose
  | .binding relation keyword name, _ => by
    rw [Term.tree, Query.ofBinding, Query.forall_nodes_branch]
    rw [List.forall_mem_cons, List.forall_mem_singleton, Query.nodes_leaf, Query.nodes_leaf,
      List.forall_mem_singleton, List.forall_mem_singleton]
    exact ⟨trivial, trivial, trivial⟩

end

end Derivation

/-- From any place in a stream, a parse that ends well gives a valid tree whose nodes hold what
their kinds hold. Where nothing in the stream opens a parenthesis, its operators are grouped to the
right. -/
theorem parse_wellFormed (stream : TokenStream) (s after : Session) (on : s.cursor.On stream)
    (tree : Query) (parsed : s.parse = (.ok tree, after)) :
    tree.validate = .ok () ∧ (∀ n ∈ tree.nodes, n.HoldsOwn) ∧
      ((∀ t ∈ stream.tokens, t.value ≠ .leftParen) → ∀ n ∈ tree.nodes, n.GroupsRight) := by
  cases ran : Grammar.wholeQuery maxNesting s.cursor with
  | error f =>
    rw [Session.parse, Session.run_of_error ran] at parsed
    cases parsed
  | ok result =>
    obtain ⟨found, e⟩ := result
    rw [Session.parse, Session.run_of_ok ran] at parsed
    cases parsed
    obtain ⟨tokens, passes, ⟨d, _, rfl, rfl⟩, _⟩ :=
      (Grammar.wholeQuery_reads maxNesting s.cursor).ok ran
    have wellFormed := d.assembles.wellFormed d.tree (List.mem_singleton_self _)
    refine ⟨wellFormed.valid, wellFormed.holds, fun bare => ?_⟩
    have flat : Derivation.Flat d.tokens := fun t member => bare t (on.mem_tokens passes member)
    exact d.groupsRight flat

/-- `A as x | B as y filter x.p == 0 and x.p == 0`, without parentheses. -/
def flatQuery : Derivation.Relations :=
  .more (.mk (.binding ⟨"A", .origin⟩ .origin ⟨"x", .origin⟩) none none)
    ⟨⟨.pipe, .origin⟩, .alternative, rfl⟩
    (.last (.mk (.binding ⟨"B", .origin⟩ .origin ⟨"y", .origin⟩) none
      (some (.origin, .more
        (.referenceFirst Derivation.anyReference Derivation.anyComparison
          (.last none (.last (.number Derivation.zero))))
        ⟨⟨.connective "and", .origin⟩, .conjunction, rfl⟩
        (.last (.referenceFirst Derivation.anyReference Derivation.anyComparison
          (.last none (.last (.number Derivation.zero)))))))))

def flatStream : TokenStream where
  tokens := flatQuery.tokens ++ [⟨.endOfInput, .origin⟩]
  source := none
  content := flatQuery.tokens
  finish := .origin
  significant_eq := by decide
  content_ne_end := by decide

theorem flatStream_wellFormed :
    (∃ after, (Session.start "q" flatStream).parse = (.ok flatQuery.tree, after)) ∧
      (∀ t ∈ flatStream.tokens, t.value ≠ .leftParen) ∧ flatQuery.tree.validate = .ok () ∧
      (∀ n ∈ flatQuery.tree.nodes, n.HoldsOwn) ∧ ∀ n ∈ flatQuery.tree.nodes, n.GroupsRight := by
  have bare : ∀ t ∈ flatStream.tokens, t.value ≠ .leftParen := by decide
  obtain ⟨e, ended⟩ : ∃ e, Grammar.wholeQuery maxNesting (.ofStream flatStream) =
      .ok (flatQuery.tree, e) := Grammar.exists_run flatQuery rfl (by decide)
  have parsed : (Session.start "q" flatStream).parse = (.ok flatQuery.tree, ⟨"q", e, 0⟩) :=
    Session.parse_of_ok ended
  obtain ⟨valid, holds, groups⟩ := parse_wellFormed flatStream (.start "q" flatStream) _
    (Cursor.on_ofStream flatStream) flatQuery.tree parsed
  exact ⟨⟨_, parsed⟩, bare, valid, holds, groups bare⟩

end EventQuery
