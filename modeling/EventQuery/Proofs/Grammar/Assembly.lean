import EventQuery.Proofs.Grammar.Derivation
import EventQuery.Proofs.Query.Nodes

set_option autoImplicit false

namespace EventQuery

/-- The tokens that leave no trace in a tree, wherever they stand. A dot stands in references only,
where it tells words apart from other words. -/
def Token.isSilent : Token → Bool
  | .relation _ | .word _ | .comparison _ | .dot => false
  | _ => true

/-- The children that a node made of whole trees may have. -/
inductive Query.Joins : Query.Kind → List Query → Prop where
  | repetition {inner : Query} (relational : inner.kind.isRelational = true) :
      Joins .repetition [inner]
  | relational {kind : Query.Kind} {left right : Query}
      (either : kind = .sequence ∨ kind = .alternative)
      (first : left.kind.isRelational = true) (second : right.kind.isRelational = true) :
      Joins kind [left, right]
  | filter {inner condition : Query} (relational : inner.kind.isRelational = true)
      (formula : condition.kind.isFormula = true) : Joins .filter [inner, condition]
  | negation {inner : Query} (formula : inner.kind.isFormula = true) : Joins .negation [inner]
  | logical {kind : Query.Kind} {left right : Query}
      (either : kind = .conjunction ∨ kind = .disjunction)
      (first : left.kind.isFormula = true) (second : right.kind.isFormula = true) :
      Joins kind [left, right]

theorem Query.Joins.ne_nil {kind : Query.Kind} {trees : List Query}
    (joins : Query.Joins kind trees) : trees ≠ [] := by
  cases joins <;> exact List.cons_ne_nil _ _

/-- Bindings and references are made of tokens, not of trees. -/
theorem Query.Joins.kind_ne {kind : Query.Kind} {trees : List Query}
    (joins : Query.Joins kind trees) : kind ≠ .binding ∧ kind ≠ .reference := by
  cases joins with
  | relational either _ _ => rcases either with rfl | rfl <;> decide
  | logical either _ _ => rcases either with rfl | rfl <;> decide
  | _ => decide

namespace Derivation

/-- The trees are put together from the tokens, and their values come from the sums, all in order. -/
inductive Assembles : List (Located Token) → List Query → List Sum → Prop where
  | nil : Assembles [] [] []
  | append {front back : List (Located Token)} {trees others : List Query} {sums more : List Sum}
      (first : Assembles front trees sums) (second : Assembles back others more) :
      Assembles (front ++ back) (trees ++ others) (sums ++ more)
  | skip {t : Located Token} (silent : t.value.isSilent = true) : Assembles [t] [] []
  | binding (relation : Located String) (keyword : Span) (name : Located String) :
      Assembles [relation.token .relation, ⟨.asKeyword, keyword⟩, name.token .word]
        [.ofBinding (relation.token .relation) (name.token .word)] []
  | referenceFirst (left : Reference) (op : Located Comparison) (right : Sum) :
      Assembles (left.tokens ++ op.token .comparison :: right.tokens)
        [.ofPredicate left.tree (op.token .comparison) right.tree] [right]
  | valueFirst (left : Sum) (op : Located Comparison) (right : Reference) :
      Assembles (left.tokens ++ op.token .comparison :: right.tokens)
        [.ofPredicate left.tree (op.token .comparison) right.tree] [left]
  | join {tokens : List (Located Token)} {trees : List Query} {sums : List Sum}
      {kind : Query.Kind} (joins : Query.Joins kind trees)
      (inside : Assembles tokens trees sums) : Assembles tokens [.branch kind trees] sums

mutual

def Formula.sums : Formula → List Sum
  | .negation _ inside => inside.sums
  | .last only => only.sums
  | .more first _ rest => first.sums ++ rest.sums

def Atom.sums : Atom → List Sum
  | .parens _ inside _ => inside.sums
  | .referenceFirst _ _ right => [right]
  | .valueFirst left _ _ _ => [left]

end

def filterSums : Option (Span × Formula) → List Sum
  | none => []
  | some (_, formula) => formula.sums

mutual

/-- The arithmetic between the comparisons of a query, in order. -/
def Relations.sums : Relations → List Sum
  | .last only => only.sums
  | .more first _ rest => first.sums ++ rest.sums

def Operand.sums : Operand → List Sum
  | .mk term _ filter => term.sums ++ filterSums filter

def Term.sums : Term → List Sum
  | .parens _ inside _ => inside.sums
  | .binding _ _ _ => []

end

mutual

theorem Formula.isFormula_tree : ∀ d : Formula, d.tree.kind.isFormula = true
  | .negation _ _ => rfl
  | .last only => only.isFormula_tree
  | .more _ op _ => by
    rw [Formula.tree, Query.kind_branch]
    rcases kind_of_logical? op.known with same | same <;> rw [same] <;> rfl

theorem Atom.isFormula_tree : ∀ d : Atom, d.tree.kind.isFormula = true
  | .parens _ inside _ => inside.isFormula_tree
  | .referenceFirst _ _ _ => rfl
  | .valueFirst _ _ _ _ => rfl

end

section Operands

variable {inner : Query} (relational : inner.kind.isRelational = true)

include relational

theorem isRelational_withPlus (plus : Option Span) :
    (withPlus plus inner).kind.isRelational = true := by
  cases plus with
  | none => exact relational
  | some span => rfl

theorem isRelational_withFilter (filter : Option (Span × Formula)) :
    (withFilter filter inner).kind.isRelational = true := by
  cases filter with
  | none => exact relational
  | some filter => rfl

end Operands

mutual

theorem Relations.isRelational_tree : ∀ d : Relations, d.tree.kind.isRelational = true
  | .last only => only.isRelational_tree
  | .more _ op _ => by
    rw [Relations.tree, Query.kind_branch]
    rcases kind_of_relational? op.known with same | same <;> rw [same] <;> rfl

theorem Operand.isRelational_tree : ∀ d : Operand, d.tree.kind.isRelational = true
  | .mk term plus filter =>
    isRelational_withFilter (isRelational_withPlus term.isRelational_tree plus) filter

theorem Term.isRelational_tree : ∀ d : Term, d.tree.kind.isRelational = true
  | .parens _ inside _ => inside.isRelational_tree
  | .binding _ _ _ => rfl

end

theorem silent_of_isJoint {t : Token} (joint : isJoint t = true) : t.isSilent = true := by
  cases t <;> first | rfl | cases joint

namespace Assembles

variable {tokens : List (Located Token)} {trees : List Query} {sums : List Sum}

/-- A token that leaves no trace, with what comes behind it. -/
theorem behind {token : Token} (silent : token.isSilent = true) (place : Span)
    (inside : Assembles tokens trees sums) : Assembles (⟨token, place⟩ :: tokens) trees sums :=
  (skip silent).append inside

theorem enclose (inside : Assembles tokens trees sums) (opening closing : Span) :
    Assembles (Derivation.enclose opening tokens closing) trees sums := by
  have right : Assembles [⟨.rightParen, closing⟩] [] [] := skip rfl
  have whole := (inside.append right).behind (rfl : Token.isSilent .leftParen = true) opening
  rwa [List.append_nil, List.append_nil] at whole

/-- Two rows on either side of a token that leaves no trace. -/
theorem around {others : List Query} {front back : List (Located Token)} {more : List Sum}
    {t : Located Token} (silent : t.value.isSilent = true) (first : Assembles front trees sums)
    (second : Assembles back others more) :
    Assembles (front ++ t :: back) (trees ++ others) (sums ++ more) :=
  first.append (second.behind silent t.span)

end Assembles

mutual

theorem Formula.assembles : ∀ d : Formula, Assembles d.tokens [d.tree] d.sums
  | .negation keyword inside => by
    have condition := inside.assembles.behind (rfl : Token.isSilent .notKeyword = true) keyword
    exact condition.join (.negation inside.isFormula_tree)
  | .last only => only.assembles
  | .more first op rest => by
    have silent : op.token.value.isSilent = true := silent_of_isJoint (isJoint_of_logical? op.known)
    have joins : Query.Joins op.meaning [first.tree, rest.tree] :=
      .logical (kind_of_logical? op.known) first.isFormula_tree rest.isFormula_tree
    exact (Assembles.around silent first.assembles rest.assembles).join joins

theorem Atom.assembles : ∀ d : Atom, Assembles d.tokens [d.tree] d.sums
  | .parens opening inside closing => inside.assembles.enclose opening closing
  | .referenceFirst left op right => .referenceFirst left op right
  | .valueFirst left _ op right => .valueFirst left op right

end

section Operands

variable {tokens : List (Located Token)} {inner : Query} {sums : List Sum}
  (inside : Assembles tokens [inner] sums) (relational : inner.kind.isRelational = true)

include inside relational

theorem assembles_withPlus (plus : Option Span) :
    Assembles (tokens ++ optionalToken .plus plus) [withPlus plus inner] sums := by
  cases plus with
  | none =>
    have same := inside.append .nil
    rwa [List.append_nil sums] at same
  | some span =>
    have plus : Assembles [⟨.plus, span⟩] [] [] := .skip rfl
    have same := inside.append plus
    rw [List.append_nil sums] at same
    exact same.join (.repetition relational)

theorem assembles_withFilter (filter : Option (Span × Formula)) :
    Assembles (tokens ++ filterTokens filter) [withFilter filter inner]
      (sums ++ filterSums filter) := by
  cases filter with
  | none => exact inside.append .nil
  | some filter =>
    obtain ⟨keyword, formula⟩ := filter
    have condition := formula.assembles.behind (rfl : Token.isSilent .filterKeyword = true) keyword
    exact (inside.append condition).join (.filter relational formula.isFormula_tree)

end Operands

mutual

theorem Relations.assembles : ∀ d : Relations, Assembles d.tokens [d.tree] d.sums
  | .last only => only.assembles
  | .more first op rest => by
    have silent : op.token.value.isSilent = true :=
      silent_of_isJoint (isJoint_of_relational? op.known)
    have joins : Query.Joins op.meaning [first.tree, rest.tree] :=
      .relational (kind_of_relational? op.known) first.isRelational_tree rest.isRelational_tree
    exact (Assembles.around silent first.assembles rest.assembles).join joins

theorem Operand.assembles : ∀ d : Operand, Assembles d.tokens [d.tree] d.sums
  | .mk term plus filter =>
    assembles_withFilter (assembles_withPlus term.assembles term.isRelational_tree plus)
      (isRelational_withPlus term.isRelational_tree plus) filter

theorem Term.assembles : ∀ d : Term, Assembles d.tokens [d.tree] d.sums
  | .parens opening inside closing => inside.assembles.enclose opening closing
  | .binding relation keyword name => .binding relation keyword name

end

end Derivation

end EventQuery
