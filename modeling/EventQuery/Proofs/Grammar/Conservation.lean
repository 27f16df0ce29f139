import EventQuery.Proofs.Grammar.Assembly
import EventQuery.Proofs.Grammar.Language

set_option autoImplicit false

namespace EventQuery

namespace Token

/-- The tokens that leaves are made of. Values are made of what arithmetic comes to. -/
def isKept : Token → Bool
  | .relation _ | .word _ | .comparison _ => true
  | _ => false

def isComparison : Token → Bool
  | .comparison _ => true
  | _ => false

theorem lost_of_isSilent {t : Token} (silent : t.isSilent = true) : t.isKept = false := by
  cases t <;> first | rfl | cases silent

theorem uncompared_of_lost {t : Token} (lost : t.isKept = false) : t.isComparison = false := by
  cases t <;> first | rfl | cases lost

end Token

namespace Query

/-- What the leaves other than values hold. -/
def heldTokens (q : Query) : List (Option (Located Token)) :=
  (q.leaves.filter (·.kind ≠ .value)).map Query.token

def referenceNodes (q : Query) : List Query := q.nodes.filter (·.kind = .reference)

end Query

namespace Derivation

theorem lost_of_isArithmetic {t : Token} (arithmetic : isArithmetic t = true) :
    t.isKept = false := by
  cases t <;> first | rfl | cases arithmetic

theorem Sum.filter_isKept (d : Sum) : d.tokens.filter (·.value.isKept) = [] := by
  apply List.filter_eq_nil_iff.mpr
  intro t member
  simp [lost_of_isArithmetic (d.arithmetic t member)]

theorem Sum.filter_isComparison (d : Sum) : d.tokens.filter (·.value.isComparison) = [] := by
  apply List.filter_eq_nil_iff.mpr
  intro t member
  simp [Token.uncompared_of_lost (lost_of_isArithmetic (d.arithmetic t member))]

/-- The trees hold the kept tokens in order, their values are made of the sums in order, and there is
a comparison and a reference for each of the sums. -/
structure Accounts (tokens : List (Located Token)) (trees : List Query) (sums : List Sum) :
    Prop where
  held : trees.flatMap Query.heldTokens = (tokens.filter (·.value.isKept)).map some
  comparisons : (tokens.filter (·.value.isComparison)).length = sums.length
  values : trees.flatMap Query.valueLeaves = sums.map Sum.tree
  references : (trees.flatMap Query.referenceNodes).length = sums.length

namespace Accounts

variable {tokens back : List (Located Token)} {trees others : List Query} {sums more : List Sum}

theorem append (first : Accounts tokens trees sums) (second : Accounts back others more) :
    Accounts (tokens ++ back) (trees ++ others) (sums ++ more) := by
  constructor
  · rw [List.flatMap_append, List.filter_append, List.map_append, first.held, second.held]
  · rw [List.filter_append, List.length_append, List.length_append, first.comparisons,
      second.comparisons]
  · rw [List.flatMap_append, List.map_append, first.values, second.values]
  · rw [List.flatMap_append, List.length_append, List.length_append, first.references,
      second.references]

theorem skip {t : Located Token} (lost : t.value.isKept = false) : Accounts [t] [] [] := by
  constructor
  · simp [lost]
  · simp [Token.uncompared_of_lost lost]
  · rfl
  · rfl

/-- Below a joining node is what its children hold. -/
theorem join {kind : Query.Kind} (joins : Query.Joins kind trees)
    (inside : Accounts tokens trees sums) : Accounts tokens [.branch kind trees] sums := by
  have leaves := Query.leaves_branch kind joins.ne_nil
  constructor
  · rw [List.flatMap_singleton, Query.heldTokens, leaves, List.filter_flatMap, List.map_flatMap]
    exact inside.held
  · exact inside.comparisons
  · rw [List.flatMap_singleton, Query.valueLeaves, leaves, List.filter_flatMap]
    exact inside.values
  · have root : ¬ decide (kind = .reference) = true := by simp [joins.kind_ne.2]
    have nodes : (Query.branch kind trees).referenceNodes = trees.flatMap Query.referenceNodes := by
      rw [Query.referenceNodes, Query.nodes_branch, List.filter_cons, Query.kind_branch,
        if_neg root, List.filter_flatMap]
      rfl
    rw [List.flatMap_singleton, nodes]
    exact inside.references

end Accounts

theorem Assembles.accounts {tokens : List (Located Token)} {trees : List Query} {sums : List Sum}
    (assembles : Assembles tokens trees sums) : Accounts tokens trees sums := by
  induction assembles with
  | nil => exact ⟨rfl, rfl, rfl, rfl⟩
  | append _ _ first second => exact first.append second
  | skip silent => exact Accounts.skip (Token.lost_of_isSilent silent)
  | binding relation keyword name => exact ⟨rfl, rfl, rfl, rfl⟩
  | referenceFirst left op right =>
    refine ⟨?_, ?_, rfl, rfl⟩
    · rw [List.filter_append, List.filter_cons, right.filter_isKept]
      rfl
    · rw [List.filter_append, List.filter_cons, right.filter_isComparison]
      rfl
  | valueFirst left op right =>
    refine ⟨?_, ?_, rfl, rfl⟩
    · rw [List.filter_append, left.filter_isKept]
      rfl
    · rw [List.filter_append, left.filter_isComparison]
      rfl
  | join joins _ inside => exact inside.join joins

end Derivation

/-- Parsing keeps all relations, words and comparisons of a stream, each of them once and in order,
and makes one value and one reference for each comparison. -/
theorem parseQuery_keeps_tokens (sourceName : String) (s : TokenStream) (tree : Query)
    (parsed : parseQuery sourceName s = .ok tree) :
    tree.heldTokens = ((significantTokens s.tokens).filter (·.value.isKept)).map some ∧
      tree.valueLeaves.length =
        ((significantTokens s.tokens).filter (·.value.isComparison)).length ∧
      tree.referenceNodes.length =
        ((significantTokens s.tokens).filter (·.value.isComparison)).length := by
  obtain ⟨e, ended⟩ := Session.parseQuery_eq_ok_iff.mp parsed
  obtain ⟨d, _, spells, rfl⟩ := Grammar.exists_derivation ended
  have finish : Derivation.Accounts [⟨.endOfInput, s.finish⟩] [] [] := .skip rfl
  have whole := d.assembles.accounts.append finish
  rw [spells, ← s.significant_eq] at whole
  obtain ⟨held, comparisons, values, references⟩ := whole
  simp only [List.append_nil, List.flatMap_singleton] at held comparisons values references
  refine ⟨held, ?_, references.trans comparisons.symm⟩
  rw [values, List.length_map, comparisons]

/-- `R as x filter 0 < x.p`: the value comes first, and is made of no token that is kept. -/
def thresholdQuery : Derivation.Relations :=
  .last (.mk (.binding ⟨"R", .origin⟩ .origin ⟨"x", .origin⟩) none
    (some (.origin, .last (.valueFirst (.last none (.last (.number Derivation.zero)))
      (fun _ first => by
        cases first
        exact Token.noConfusion)
      ⟨.less, .origin⟩ ⟨⟨"x", .origin⟩, .origin, ⟨"p", .origin⟩⟩))))

def thresholdStream : TokenStream where
  tokens := thresholdQuery.tokens ++ [⟨.endOfInput, .origin⟩]
  source := none
  content := thresholdQuery.tokens
  finish := .origin
  significant_eq := by decide
  content_ne_end := by decide

theorem thresholdStream_keeps_tokens :
    parseQuery "q" thresholdStream = .ok thresholdQuery.tree ∧
      thresholdQuery.tree.heldTokens =
        [some ⟨.relation "R", .origin⟩, some ⟨.word "x", .origin⟩,
          some ⟨.comparison .less, .origin⟩, some ⟨.word "x", .origin⟩,
          some ⟨.word "p", .origin⟩] ∧
      thresholdQuery.tree.valueLeaves.length = 1 ∧
      thresholdQuery.tree.referenceNodes.length = 1 := by
  have parsed : parseQuery "q" thresholdStream = .ok thresholdQuery.tree :=
    Session.parseQuery_eq_ok_iff.mpr (Grammar.exists_run thresholdQuery rfl (by decide))
  obtain ⟨held, values, references⟩ :=
    parseQuery_keeps_tokens "q" thresholdStream thresholdQuery.tree parsed
  exact ⟨parsed, held, values, references⟩

end EventQuery
