import EventQuery.Proofs.Query.Nodes
import EventQuery.Query.Validity

set_option autoImplicit false

namespace EventQuery

/-- What holds of every element at its place holds of the first and of those behind it. -/
theorem forall_getElem?_cons {α : Type} {holds : Nat → α → Prop} {a : α} {rest : List α} :
    (∀ i b, (a :: rest)[i]? = some b → holds i b) ↔
      holds 0 a ∧ ∀ i b, rest[i]? = some b → holds (i + 1) b := by
  constructor
  · intro all
    exact ⟨all 0 a rfl, fun i b found => all (i + 1) b found⟩
  · rintro ⟨first, later⟩ i b found
    cases i with
    | zero =>
      cases found
      exact first
    | succ i => exact later i b found

namespace Query

/-- All children are valid and accepted in their places. -/
theorem validateAll_eq_ok_iff {parent : Kind} {kinds : List Kind} {children : List Query} :
    ∀ {index : Nat}, validateAll parent kinds index children = .ok () ↔
      ∀ i child, children[i]? = some child →
        parent.accepts kinds (index + i) child.kind = true ∧ child.validate = .ok () := by
  induction children with
  | nil => simp [validateAll]
  | cons child rest ih =>
    intro index
    rw [validateAll, forall_getElem?_cons]
    by_cases accepted : parent.accepts kinds index child.kind = true
    · rw [if_pos accepted]
      cases checked : child.validate with
      | error defect => simp
      | ok _ =>
        have later : ∀ i, index + 1 + i = index + (i + 1) := fun i => by omega
        simp [ih, accepted, later]
    · simp [accepted]

theorem validate_branch_eq_ok_iff {kind : Kind} {children : List Query}
    (inner : kind.isLeaf = false) :
    (branch kind children).validate = .ok () ↔ children.length = kind.arity ∧
      ∀ i child, children[i]? = some child →
        kind.accepts (children.map Query.kind) i child.kind = true ∧ child.validate = .ok () := by
  rw [branch, validate, inner, ite_not]
  by_cases arity : children.length = kind.arity
  · simp [arity, validateAll_eq_ok_iff]
  · simp [arity]

theorem validate_leaf {kind : Kind} (isLeaf : kind.isLeaf = true) (plain : kind ≠ .value)
    (token : Located Token) : (leaf kind token).validate = .ok () := by
  have arity : 0 = kind.arity := by
    rw [Kind.isLeaf, decide_eq_true_eq] at isLeaf
    exact isLeaf.symm
  simp [leaf, validate, isLeaf, validateLeaf, plain, ← arity]

theorem validate_ofValue (number : Float) (range : Span) :
    (ofValue number range).validate = .ok () := rfl

end Query

end EventQuery
