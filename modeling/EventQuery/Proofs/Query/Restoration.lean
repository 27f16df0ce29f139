import EventQuery.Proofs.Grammar.PrintedForm
import EventQuery.Proofs.Lexeme.Tiling
import EventQuery.Proofs.Query.Serialization

set_option autoImplicit false

namespace EventQuery

theorem Span.Fits.merge {s t : Span} (first : s.Fits) (second : t.Fits) : (s.merge t).Fits := by
  constructor
  · rw [Span.merge]
    dsimp only
    split
    · exact second.start
    · exact first.start
  · rw [Span.merge]
    dsimp only
    split
    · exact second.stop
    · exact first.stop

/-- All tokens of the row lie where JSON can write their places. -/
def PlacesFit (tokens : List (Located Token)) : Prop := ∀ t ∈ tokens, t.span.Fits

namespace Derivation

theorem extent_fits {tokens : List (Located Token)} (fits : PlacesFit tokens) :
    (extent tokens).Fits := by
  cases tokens with
  | nil => exact show Span.origin.Fits by decide
  | cons t rest => exact (fits t List.mem_cons_self).merge (fits _ List.getLastD_mem_cons)

end Derivation

namespace Query

theorem Placeable.branch {kind : Kind} {children : List Query}
    (below : ∀ child ∈ children, child.Placeable) : (branch kind children).Placeable :=
  forall_nodes_branch.mpr ⟨fun _ absent => (by cases absent), below⟩

theorem Placeable.pair {kind : Kind} {first second : Query} (left : first.Placeable)
    (right : second.Placeable) : (Query.branch kind [first, second]).Placeable :=
  .branch (List.forall_mem_cons.mpr ⟨left, List.forall_mem_singleton.mpr right⟩)

theorem Placeable.single {kind : Kind} {token : Located Token} {value : Option Float}
    (fits : token.span.Fits) : (node kind [] (some token) value).Placeable := by
  intro n inside t held
  obtain rfl := List.mem_singleton.mp inside
  cases held
  exact fits

end Query

namespace Derivation

theorem Reference.placeable (r : Reference) (fits : PlacesFit r.tokens) : r.tree.Placeable := by
  simp only [PlacesFit, Reference.tokens, List.forall_mem_cons] at fits
  exact .pair (.single fits.1) (.single fits.2.2.1)

theorem predicate_placeable {left right : Query} {op : Located Token} (first : left.Placeable)
    (middle : op.span.Fits) (second : right.Placeable) :
    (Query.ofPredicate left op right).Placeable := by
  refine .branch ?_
  simp only [List.forall_mem_cons, List.not_mem_nil, false_implies, implies_true, and_true]
  exact ⟨first, .single middle, second⟩

theorem Assembles.placeable {tokens : List (Located Token)} {trees : List Query}
    {sums : List Sum} (assembles : Assembles tokens trees sums) :
    PlacesFit tokens → ∀ tree ∈ trees, tree.Placeable := by
  induction assembles with
  | nil => exact fun _ _ absent => by cases absent
  | append _ _ first second =>
    intro fits
    obtain ⟨front, back⟩ := List.forall_mem_append.mp fits
    exact List.forall_mem_append.mpr ⟨first front, second back⟩
  | skip _ => exact fun _ _ absent => by cases absent
  | binding relation keyword name =>
    intro fits
    simp only [PlacesFit, List.forall_mem_cons] at fits
    rw [List.forall_mem_singleton]
    exact .pair (.single fits.1) (.single fits.2.2.1)
  | referenceFirst left op right =>
    intro fits
    obtain ⟨front, back⟩ := List.forall_mem_append.mp fits
    obtain ⟨middle, last⟩ := List.forall_mem_cons.mp back
    rw [List.forall_mem_singleton]
    exact predicate_placeable (left.placeable front) middle (.single (extent_fits last))
  | valueFirst left op right =>
    intro fits
    obtain ⟨front, back⟩ := List.forall_mem_append.mp fits
    obtain ⟨middle, last⟩ := List.forall_mem_cons.mp back
    rw [List.forall_mem_singleton]
    exact predicate_placeable (.single (extent_fits front)) middle (right.placeable last)
  | join joins _ inside =>
    intro fits
    rw [List.forall_mem_singleton]
    exact .branch (inside fits)

end Derivation

namespace Query

section Validity

variable {change : Float → Option Float}

/-- Every value still has a number. -/
def KeepsValues (change : Float → Option Float) (q : Query) : Prop :=
  ∀ n ∈ q.nodes, n.kind = .value → (n.value.bind change).isSome = true

theorem keepsValues_node {kind : Kind} (inner : kind ≠ .value) {children : List Query}
    {token : Option (Located Token)} {value : Option Float} :
    KeepsValues change (.node kind children token value) ↔
      ∀ child ∈ children, child.KeepsValues change := by
  constructor
  · exact fun kept child member n inside => kept n (mem_nodes_of_child member inside)
  · intro kept n inside
    rw [nodes_node] at inside
    rcases List.mem_cons.mp inside with rfl | below
    · exact fun same => absurd same inner
    · obtain ⟨child, member, within⟩ := List.mem_flatMap.mp below
      exact kept child member n within

theorem kind_mapValues (q : Query) : (q.mapValues change).kind = q.kind := by
  obtain ⟨kind, children, token, value⟩ := q
  rw [mapValues_node]
  rfl

/-- What becomes of a valid tree whose numbers are changed, some of them to nothing. -/
def Resolves (change : Float → Option Float) (q : Query) : Prop :=
  (q.mapValues change).validate = .ok () ∧ q.KeepsValues change ∨
    (q.mapValues change).validate = .error .missingValue ∧ ¬ q.KeepsValues change

theorem mapValues_kinds (children : List Query) :
    (children.map (mapValues change)).map Query.kind = children.map Query.kind := by
  rw [List.map_map]
  exact List.map_congr_left fun q _ => kind_mapValues q

theorem validateAll_mapValues {parent : Kind} {kinds : List Kind} :
    ∀ {children : List Query} {index : Nat},
      (∀ child ∈ children, child.validate = .ok () → child.Resolves change) →
        validateAll parent kinds index children = .ok () →
          validateAll parent kinds index (children.map (mapValues change)) = .ok () ∧
              (∀ child ∈ children, child.KeepsValues change) ∨
            validateAll parent kinds index (children.map (mapValues change)) =
                .error .missingValue ∧ ¬ ∀ child ∈ children, child.KeepsValues change := by
  intro children
  induction children with
  | nil => exact fun _ _ => .inl ⟨rfl, fun _ absent => nomatch absent⟩
  | cons child rest ih =>
    intro index resolve valid
    rw [validateAll] at valid
    by_cases accepted : parent.accepts kinds index child.kind = true
    · rw [if_pos accepted] at valid
      rw [List.map_cons, validateAll, kind_mapValues, if_pos accepted]
      cases checked : child.validate with
      | error defect =>
        rw [checked] at valid
        cases valid
      | ok _ =>
        rw [checked] at valid
        rcases resolve child List.mem_cons_self checked with ⟨sound, kept⟩ | ⟨missing, lost⟩
        · rw [sound]
          rcases ih (fun c member => resolve c (List.mem_cons_of_mem _ member)) valid with
            ⟨sound, all⟩ | ⟨missing, lost⟩
          · exact .inl ⟨sound, List.forall_mem_cons.mpr ⟨kept, all⟩⟩
          · exact .inr ⟨missing, fun all => lost (List.forall_mem_cons.mp all).2⟩
        · rw [missing]
          exact .inr ⟨rfl, fun all => lost (all child List.mem_cons_self)⟩
    · rw [if_neg accepted] at valid
      cases valid

theorem resolves_of_validate (q : Query) : q.validate = .ok () → q.Resolves change := by
  induction q using nested_induction with
  | node kind children token value ih =>
    intro valid
    rw [validate] at valid
    rw [Resolves, mapValues_node, validate, List.length_map]
    by_cases arity : children.length = kind.arity
    · rw [if_neg (not_not_intro arity)] at valid ⊢
      by_cases leaf : kind.isLeaf = true
      · rw [if_pos leaf] at valid ⊢
        obtain rfl : children = [] := List.length_eq_zero_iff.mp (length_of_isLeaf leaf arity)
        have own : KeepsValues change (.node kind [] token value) ↔
            (kind = .value → (value.bind change).isSome = true) := List.forall_mem_singleton
        rw [own]
        unfold validateLeaf at valid ⊢
        by_cases absent : token.isNone = true
        · rw [if_pos absent] at valid
          cases valid
        · rw [if_neg absent]
          by_cases lost : kind = .value ∧ (value.bind change).isNone = true
          · rw [if_pos lost]
            refine .inr ⟨rfl, fun kept => ?_⟩
            have present := kept lost.1
            rw [Option.isNone_iff_eq_none.mp lost.2] at present
            cases present
          · rw [if_neg lost]
            refine .inl ⟨rfl, fun isValue => ?_⟩
            cases found : value.bind change with
            | none => exact absurd ⟨isValue, found ▸ rfl⟩ lost
            | some _ => rfl
      · rw [if_neg leaf] at valid ⊢
        have inner : kind ≠ .value := by
          rintro rfl
          exact leaf rfl
        rw [keepsValues_node inner, mapValues_kinds]
        exact validateAll_mapValues ih valid
    · rw [if_pos arity] at valid
      cases valid

end Validity

theorem HoldsOwn.kind_of_value {n : Query} (own : n.HoldsOwn) {number : Float}
    (held : n.value = some number) : n.kind = .value := by
  obtain ⟨kind, _, _, value⟩ := n
  cases kind <;> first | rfl | exact nomatch own.2.symm.trans held

theorem HoldsOwn.exists_value {n : Query} (own : n.HoldsOwn) (kind : n.kind = .value) :
    ∃ number, n.value = some number := by
  obtain ⟨_, _, _, value⟩ := n
  cases kind
  obtain ⟨number, _, _, held⟩ := own
  exact ⟨number, held⟩

/-- All numbers of the tree are finite. -/
def Finite (q : Query) : Prop := ∀ n ∈ q.nodes, ∀ x ∈ n.value, x.isFinite = true

instance (q : Query) : Decidable q.Finite :=
  inferInstanceAs (Decidable (∀ n ∈ q.nodes, ∀ x ∈ n.value, x.isFinite = true))

section Restoring

variable {lib : Json.Library} (conforms : lib.Conforms)

include conforms

theorem WellFormed.keepsValues_iff {q : Query} (wellFormed : q.WellFormed) :
    q.KeepsValues lib.reread ↔ q.Finite := by
  constructor
  · intro kept n inside x held
    have present := kept n inside ((wellFormed.holds n inside).kind_of_value held)
    rw [show n.value = some x from held, Option.bind_some, conforms.isSome_reread] at present
    exact present
  · intro finite n inside kind
    obtain ⟨x, held⟩ := (wellFormed.holds n inside).exists_value kind
    rw [held, Option.bind_some, conforms.isSome_reread]
    exact finite n inside x held

/-- A tree of a query that is read back is valid, unless a number of it is not finite. -/
theorem WellFormed.restored {q : Query} (wellFormed : q.WellFormed) :
    (q.mapValues lib.reread).validate = .ok () ∧ q.Finite ∨
      (q.mapValues lib.reread).validate = .error .missingValue ∧ ¬ q.Finite := by
  rw [← wellFormed.keepsValues_iff conforms]
  exact resolves_of_validate q wellFormed.valid

end Restoring

end Query

section Queries

variable {counting : Counting} {source : SourceText} {stream : TokenStream} {name : String}
  {tree : Query}

theorem placesFit_of_tokenized (ended : (tokenize counting source).outcome = .ok stream)
    (small : source.size ≤ Query.greatestOffset) : PlacesFit stream.tokens := by
  obtain ⟨pieces, decomposes, tokens, held⟩ := exists_pieces_of_ok ended
  have boundary := (covers_of_pieces decomposes tokens held).boundary
  have within {p : Position} (place : Boundary source.content p) :
      p.offset ≤ Query.greatestOffset := by
    obtain ⟨front, back, content, behind⟩ := place
    rw [SourceText.size, content, byteCount_append] at small
    rw [behind.offset]
    omega
  exact fun t member => ⟨within (boundary t member).1, within (boundary t member).2⟩

theorem wellFormed_of_parseQuery (parsed : parseQuery name stream = .ok tree) :
    tree.WellFormed := by
  obtain ⟨e, accepted⟩ := Session.parseQuery_eq_ok_iff.mp parsed
  obtain ⟨d, _, _, rfl⟩ := Grammar.exists_derivation accepted
  exact d.assembles.wellFormed d.tree (List.mem_singleton_self _)

theorem placeable_of_parseQuery (small : source.size ≤ Query.greatestOffset)
    (tokenized : (tokenize counting source).outcome = .ok stream)
    (parsed : parseQuery name stream = .ok tree) : tree.Placeable := by
  obtain ⟨e, accepted⟩ := Session.parseQuery_eq_ok_iff.mp parsed
  obtain ⟨d, _, spells, rfl⟩ := Grammar.exists_derivation accepted
  have fits : PlacesFit d.tokens := by
    intro t member
    have significant : t ∈ significantTokens stream.tokens := by
      rw [stream.significant_eq, ← spells]
      exact List.mem_append_left _ member
    exact placesFit_of_tokenized tokenized small t (List.mem_filter.mp significant).1
  exact d.assembles.placeable fits d.tree (List.mem_singleton_self _)

end Queries

/-- The tree of a query of up to 62 levels is read back from both of its JSON texts. What is read is
valid exactly if all numbers of the query are finite; otherwise a value has no number. -/
theorem restored_valid_iff {lib : Json.Library} (conforms : lib.Conforms) (counting : Counting)
    (source : SourceText) (stream : TokenStream) (small : source.size ≤ Query.greatestOffset)
    (tokenized : (tokenize counting source).outcome = .ok stream) (tree : Query)
    (parsed : parseQuery source.name stream = .ok tree) (shallow : tree.depth ≤ 62) :
    ∃ restored, Query.readText? lib (lib.render (tree.toJson lib)) = some restored ∧
      Query.readText? lib (lib.renderPretty (tree.toJson lib)) = some restored ∧
      (restored.validate = .ok () ↔ tree.Finite) ∧
      (restored.validate = .ok () ∨ restored.validate = .error .missingValue) := by
  have whole := placeable_of_parseQuery small tokenized parsed
  refine ⟨_, Query.readText?_render conforms shallow whole,
    Query.readText?_renderPretty conforms shallow whole, ?_⟩
  rcases (wellFormed_of_parseQuery parsed).restored conforms with
    ⟨sound, finite⟩ | ⟨missing, infinite⟩
  · exact ⟨iff_of_true sound finite, .inl sound⟩
  · have unsound : (tree.mapValues lib.reread).validate ≠ .ok () :=
      fun sound => nomatch missing.symm.trans sound
    exact ⟨iff_of_false unsound infinite, .inr missing⟩

/-- The greatest number that a query can have is read back. -/
def greatestFilter : SourceText :=
  .ofString "q" "A as x filter x.p < 1.7976931348623157e308"

theorem greatestFilter_restored :
    ∃ stream tree restored, greatestFilter.size ≤ Query.greatestOffset ∧
      (tokenize ⟨true, true⟩ greatestFilter).outcome = .ok stream ∧
      parseQuery "q" stream = .ok tree ∧ tree.depth ≤ 62 ∧
      Query.readText? Json.reference (Json.reference.render (tree.toJson Json.reference)) =
        some restored ∧
      Query.readText? Json.reference (Json.reference.renderPretty (tree.toJson Json.reference)) =
        some restored ∧
      restored.validate = .ok () := by
  have small : greatestFilter.size ≤ Query.greatestOffset := by decide +kernel
  obtain ⟨tree, found, fits⟩ : ∃ tree, greatestFilter.query? = some tree ∧
      decide (tree.depth ≤ 62 ∧ tree.Finite) = true :=
    Option.map_eq_some_iff.mp (by decide +kernel)
  obtain ⟨shallow, finite⟩ := of_decide_eq_true fits
  obtain ⟨stream, tokenized, parsed⟩ := exists_of_query? found
  obtain ⟨restored, read, read', sound, _⟩ := restored_valid_iff Json.reference_conforms
    ⟨true, true⟩ greatestFilter stream small tokenized tree parsed shallow
  exact ⟨stream, tree, restored, small, tokenized, parsed, shallow, read, read', sound.mpr finite⟩

/-- A quotient that is infinite. -/
def infiniteFilter : SourceText := .ofString "q" "A as x filter x.p > 1/0"

theorem infiniteFilter_not_restored :
    ∃ stream tree restored, (tokenize ⟨true, true⟩ infiniteFilter).outcome = .ok stream ∧
      parseQuery "q" stream = .ok tree ∧ tree.depth ≤ 62 ∧
      Query.readText? Json.reference (Json.reference.render (tree.toJson Json.reference)) =
        some restored ∧
      restored.validate = .error .missingValue := by
  obtain ⟨tree, found, fits⟩ : ∃ tree, infiniteFilter.query? = some tree ∧
      decide (tree.depth ≤ 62 ∧ ¬ tree.Finite) = true :=
    Option.map_eq_some_iff.mp (by decide +kernel)
  obtain ⟨shallow, infinite⟩ := of_decide_eq_true fits
  obtain ⟨stream, tokenized, parsed⟩ := exists_of_query? found
  have whole := placeable_of_parseQuery (by decide +kernel) tokenized parsed
  have missing := ((wellFormed_of_parseQuery parsed).restored Json.reference_conforms).resolve_left
    fun kept => infinite kept.2
  exact ⟨stream, tree, _, tokenized, parsed, shallow,
    Query.readText?_render Json.reference_conforms shallow whole, missing.1⟩

end EventQuery
