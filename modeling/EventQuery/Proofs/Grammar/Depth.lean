import EventQuery.Proofs.Grammar.Folding
import EventQuery.Proofs.Grammar.Viability
import EventQuery.Proofs.Query.Depth

set_option autoImplicit false

namespace EventQuery

namespace Derivation

@[simp] theorem Sum.depth_tree (d : Sum) : d.tree.depth = 1 := Query.depth_ofValue ..

@[simp] theorem Reference.depth_tree (r : Reference) : r.tree.depth = 2 := Query.depth_ofReference ..

mutual

/-- A formula is a predicate under as many nodes as it needs levels. -/
theorem Formula.depth_tree_le : ∀ d : Formula, d.tree.depth ≤ d.need + 3
  | .negation keyword inside => by
    have below := inside.depth_tree_le
    rw [Formula.tree, Query.depth_unary, Formula.need]
    omega
  | .last only => by
    have same := only.depth_tree_le
    rw [Formula.tree, Formula.need]
    omega
  | .more first op rest => by
    have left := first.depth_tree_le
    have right := rest.depth_tree_le
    rw [Formula.tree, Query.depth_binary, Formula.need]
    omega

/-- Parentheses take a level and add no node. A connective needs this room, since it adds a node to
the operand before it without taking a level from that operand. -/
theorem Atom.depth_tree_le : ∀ d : Atom, d.tree.depth ≤ max 3 (d.need + 2)
  | .parens opening inside closing => by
    have same := inside.depth_tree_le
    rw [Atom.tree, Atom.need]
    omega
  | .referenceFirst left op right => by
    rw [Atom.tree, Query.depth_ofPredicate, left.depth_tree, right.depth_tree]
    omega
  | .valueFirst left bare op right => by
    rw [Atom.tree, Query.depth_ofPredicate, left.depth_tree, right.depth_tree]
    omega

end

theorem depth_withPlus_le (plus : Option Span) (inner : Query) :
    (withPlus plus inner).depth ≤ inner.depth + 1 := by
  cases plus with
  | none => exact Nat.le_succ _
  | some span =>
    have repeated : (withPlus (some span) inner).depth = 1 + inner.depth := Query.depth_unary ..
    omega

theorem depth_withFilter_le (filter : Option (Span × Formula)) (inner : Query) :
    (withFilter filter inner).depth ≤ max (inner.depth + 1) (filterNeed filter + 4) := by
  cases filter with
  | none =>
    rw [withFilter]
    omega
  | some filter =>
    obtain ⟨keyword, formula⟩ := filter
    have condition := formula.depth_tree_le
    rw [withFilter, Query.depth_binary, filterNeed]
    omega

mutual

/-- The three nodes of a level are a repetition, a filter and an operator, all of them over a query in
parentheses. -/
theorem Relations.depth_tree_le : ∀ d : Relations, d.tree.depth ≤ 3 * d.need + 4
  | .last only => by
    have same := only.depth_tree_le
    rw [Relations.tree, Relations.need]
    omega
  | .more first op rest => by
    have left := first.depth_tree_le
    have right := rest.depth_tree_le
    rw [Relations.tree, Query.depth_binary, Relations.need]
    omega

theorem Operand.depth_tree_le : ∀ d : Operand, d.tree.depth ≤ max 4 (3 * d.need + 3)
  | .mk term plus filter => by
    have inner := term.depth_tree_le
    have repeated := depth_withPlus_le plus term.tree
    have filtered := depth_withFilter_le filter (withPlus plus term.tree)
    rw [Operand.tree, Operand.need]
    omega

theorem Term.depth_tree_le : ∀ d : Term, d.tree.depth ≤ max 2 (3 * d.need + 1)
  | .parens opening inside closing => by
    have same := inside.depth_tree_le
    rw [Term.tree, Term.need]
    omega
  | .binding relation keyword name => by
    rw [Term.tree, Query.depth_ofBinding]
    omega

end

end Derivation

/-- A query that is read at any depth of nesting has a tree of bounded depth, by the levels that are
left there. From its beginning, whatever the length of the input, a tree has a depth of no more than
388, and so has every way down from its root. -/
theorem query_depth_le (s after : Session) (tree : Query) :
    (s.run Grammar.query = (.ok tree, after) → tree.depth ≤ 3 * (maxNesting - s.depth) + 4) ∧
      (s.parse = (.ok tree, after) → tree.depth ≤ 388 ∧
        ∀ calls, Query.Descends (tree :: calls) → (tree :: calls).length ≤ 388) := by
  constructor
  · intro ran
    obtain ⟨c, ended, _⟩ := Session.run_eq_ok_iff.mp ran
    obtain ⟨tokens, _, ⟨d, fits, _, rfl⟩, _⟩ := (Grammar.query_reads _ s.cursor).ok ended
    have bound := d.depth_tree_le
    omega
  · intro parsed
    obtain ⟨c, ended, _⟩ := Session.run_eq_ok_iff.mp parsed
    obtain ⟨tokens, _, ⟨d, fits, _, rfl⟩, _⟩ := (Grammar.wholeQuery_reads _ s.cursor).ok ended
    have room : d.need ≤ 128 := fits
    have bound := d.depth_tree_le
    have shallow : d.tree.depth ≤ 388 := by omega
    exact ⟨shallow, fun calls descends => Nat.le_trans descends.length_le shallow⟩

namespace Derivation

/-- `x.p == 0` -/
def anyFilter : Option (Span × Formula) :=
  some (.origin, .last (.referenceFirst anyReference anyComparison (.last none (.last (.number zero)))))

/-- `A as x` -/
def anyBinding : Term := .binding ⟨"A", .origin⟩ .origin ⟨"x", .origin⟩

/-- `A as x + filter x.p == 0`, then for every level the query so far in parentheses, repeated,
filtered, and with `: A as x` behind it. -/
def deepest : Nat → Relations
  | 0 => .last (.mk anyBinding (some .origin) anyFilter)
  | n + 1 => .more (.mk (.parens .origin (deepest n) .origin) (some .origin) anyFilter)
    ⟨⟨.colon, .origin⟩, .sequence, rfl⟩ (.last (.mk anyBinding none none))

/-- The bound is met at every number of levels. -/
theorem depth_deepest (n : Nat) :
    (deepest n).need = n ∧ (deepest n).tree.depth = 3 * n + 4 := by
  induction n with
  | zero => exact ⟨rfl, rfl⟩
  | succ n ih =>
    obtain ⟨need, depth⟩ := ih
    constructor
    · have levels : (deepest (n + 1)).need = max (max (1 + (deepest n).need) 0) (1 + 0) := rfl
      omega
    · have repeated : (withPlus (some .origin) (deepest n).tree).depth =
          1 + (deepest n).tree.depth := Query.depth_unary ..
      have filtered : (withFilter anyFilter (withPlus (some .origin) (deepest n).tree)).depth =
          1 + max (withPlus (some .origin) (deepest n).tree).depth 3 := Query.depth_binary ..
      have joined : (deepest (n + 1)).tree.depth =
          1 + max (withFilter anyFilter (withPlus (some .origin) (deepest n).tree)).depth 2 :=
        Query.depth_binary ..
      omega

end Derivation

theorem deepest_depth_le :
    ∃ stream tree after, (Session.start "q" stream).parse = (.ok tree, after) ∧
      tree.depth = 388 ∧ ∀ calls, Query.Descends (tree :: calls) → (tree :: calls).length ≤ 388 := by
  obtain ⟨need, depth⟩ := Derivation.depth_deepest 128
  obtain ⟨stream, _, content⟩ := TokenStream.exists_of_derivation (Derivation.deepest 128) .origin
  obtain ⟨e, ended⟩ := Grammar.exists_run (Derivation.deepest 128) content.symm (Nat.le_of_eq need)
  have parsed : (Session.start "q" stream).parse =
      (.ok (Derivation.deepest 128).tree, ⟨"q", e, 0⟩) := Session.parse_of_ok ended
  exact ⟨stream, _, _, parsed, depth, ((query_depth_le _ _ _).2 parsed).2⟩

end EventQuery
