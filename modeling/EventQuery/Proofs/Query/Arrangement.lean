import Mathlib.Data.List.Basic
import EventQuery.Proofs.Query.Address
import EventQuery.Proofs.Query.Validity

set_option autoImplicit false

namespace EventQuery.Query

/-- The kinds that the children of a node may have, in order. -/
inductive Kind.Arranges : Kind → List Kind → Prop where
  | binding : Arranges .binding [.relationName, .variableName]
  | reference : Arranges .reference [.variableName, .propertyName]
  | repetition {a : Kind} (repeated : a.isRelational = true) : Arranges .repetition [a]
  | sequence {a b : Kind} (left : a.isRelational = true) (right : b.isRelational = true) :
      Arranges .sequence [a, b]
  | alternative {a b : Kind} (left : a.isRelational = true) (right : b.isRelational = true) :
      Arranges .alternative [a, b]
  | filter {a b : Kind} (filtered : a.isRelational = true) (condition : b.isFormula = true) :
      Arranges .filter [a, b]
  | negation {a : Kind} (negated : a.isFormula = true) : Arranges .negation [a]
  | conjunction {a b : Kind} (left : a.isFormula = true) (right : b.isFormula = true) :
      Arranges .conjunction [a, b]
  | disjunction {a b : Kind} (left : a.isFormula = true) (right : b.isFormula = true) :
      Arranges .disjunction [a, b]
  | referenceFirst : Arranges .predicate [.reference, .comparison, .value]
  | valueFirst : Arranges .predicate [.value, .comparison, .reference]
  | leaf {k : Kind} (isLeaf : k.isLeaf = true) : Arranges k []

/-- The node has as many children as its kind asks for, of the kinds that it may have, a token if it
is a leaf, and a number if it is a value. -/
structure Regular (n : Query) : Prop where
  arity : n.children.length = n.kind.arity
  arranged : n.kind.Arranges (n.children.map kind)
  token : n.kind.isLeaf = true → n.token.isSome = true
  number : n.kind = .value → n.value.isSome = true

/-- The places that are ruled together with a place: the operands of a predicate with each other,
and every other place alone. -/
def Kind.ruledWith (parent : Kind) (index : Nat) : List Nat :=
  if parent = .predicate ∧ index ≠ 1 then [0, 2] else [index]

/-- Every row of kinds that the parent may have differs from the given one at a place that is ruled
together with this one. -/
def Kind.Forbids (parent : Kind) (kinds : List Kind) (index : Nat) : Prop :=
  ∀ row, parent.Arranges row → ∃ i ∈ parent.ruledWith index, row[i]? ≠ kinds[i]?

/-- What a defect says of a node. -/
def Defect.HoldsOf : Defect → Query → Prop
  | .wrongArity kind found, n =>
    n.kind = kind ∧ n.children.length = found ∧ found ≠ kind.arity
  | .wrongChild kind child index, n =>
    n.kind = kind ∧ (∃ c, n.children[index]? = some c ∧ c.kind = child) ∧
      kind.Forbids (n.children.map Query.kind) index
  | .missingToken kind, n => n.kind = kind ∧ kind.isLeaf = true ∧ n.token = none
  | .missingValue, n => n.kind = .value ∧ n.value = none

/-- The rule of `Kind.accepts` with every kind read at a place that must be there: from the kinds
that a binding or a reference asks for, and from those of the children of a predicate. -/
def Kind.accepts? (parent : Kind) (children : List Kind) (index : Nat) (child : Kind) :
    Option Bool :=
  match parent with
  | binding => [relationName, variableName][index]?.map fun asked => child = asked
  | reference => [variableName, propertyName][index]?.map fun asked => child = asked
  | repetition | sequence | alternative => some child.isRelational
  | filter => some (if index = 0 then child.isRelational else child.isFormula)
  | negation | conjunction | disjunction => some child.isFormula
  | predicate =>
    children[0]?.bind fun left => children[2]?.map fun right =>
      if index = 1 then child = comparison else comparable (some left) (some right)
  | relationName | variableName | comparison | propertyName | value => some false

mutual

/-- `validate`, stopping without an answer where something is read that is not there. -/
def validate? : Query → Option (Except Defect Unit)
  | node kind children token value =>
    if children.length ≠ kind.arity then some (.error (.wrongArity kind children.length))
    else if kind.isLeaf then some (validateLeaf kind token value)
    else validateAll? kind (children.map Query.kind) 0 children

def validateAll? (parent : Kind) (kinds : List Kind) (index : Nat) :
    List Query → Option (Except Defect Unit)
  | [] => some (.ok ())
  | child :: rest =>
    (parent.accepts? kinds index child.kind).bind fun accepted =>
      if accepted then
        (validate? child).bind fun
          | .error defect => some (.error defect)
          | .ok () => validateAll? parent kinds (index + 1) rest
      else some (.error (.wrongChild parent child.kind index))

end

namespace Kind

variable {parent child : Kind} {kinds row : List Kind} {index : Nat}

theorem accepts?_eq (arity : kinds.length = parent.arity) (inside : index < parent.arity) :
    parent.accepts? kinds index child = some (parent.accepts kinds index child) := by
  cases parent with
  | binding | reference =>
    match index, inside with
    | 0, _ => rfl
    | 1, _ => rfl
  | predicate =>
    match kinds, arity with
    | [a, b, c], _ => rfl
  | _ => rfl

end Kind

theorem validateAll?_eq {parent : Kind} {kinds : List Kind} (arity : kinds.length = parent.arity) :
    ∀ {index : Nat} {children : List Query}, index + children.length = parent.arity →
      (∀ child ∈ children, child.validate? = some child.validate) →
      validateAll? parent kinds index children = some (validateAll parent kinds index children)
  | _, [], _, _ => by rw [validateAll?, validateAll]
  | index, child :: rest, within, each => by
    rw [List.length_cons] at within
    have here := each child List.mem_cons_self
    have later := validateAll?_eq arity (show index + 1 + rest.length = parent.arity by omega)
      fun c member => each c (List.mem_cons_of_mem child member)
    rw [validateAll?, validateAll, Kind.accepts?_eq arity (by omega), Option.bind_some, here]
    split
    · cases child.validate with
      | error defect => rfl
      | ok done => exact later
    · rfl

/-- Nothing is read that is not there. -/
theorem validate?_eq (q : Query) : q.validate? = some q.validate := by
  induction q using nested_induction with
  | node kind children token value each =>
    rw [validate?, validate]
    split
    · rfl
    · rename_i same
      have arity : children.length = kind.arity := Decidable.not_not.mp same
      split
      · rfl
      · refine validateAll?_eq ?_ ?_ each
        · rw [List.length_map, arity]
        · rw [Nat.zero_add, arity]

namespace Kind

variable {parent child : Kind} {kinds row : List Kind} {index : Nat}

theorem comparable_eq_true_iff {a b : Kind} :
    comparable (some a) (some b) = true ↔
      a = .reference ∧ b = .value ∨ a = .value ∧ b = .reference := by
  cases a <;> cases b <;> simp [comparable]

theorem Arranges.length_eq (arranged : parent.Arranges kinds) : kinds.length = parent.arity := by
  cases arranged with
  | leaf isLeaf => exact (of_decide_eq_true isLeaf).symm
  | _ => rfl

/-- The children of an inner node make a row that it may have just where each of them is accepted
in its place. -/
theorem arranges_iff (inner : parent.isLeaf = false) :
    parent.Arranges kinds ↔ kinds.length = parent.arity ∧
      ∀ i child, kinds[i]? = some child → parent.accepts kinds i child = true := by
  constructor
  · intro arranged
    refine ⟨arranged.length_eq, ?_⟩
    cases arranged with
    | leaf isLeaf => simp [isLeaf] at inner
    | _ => simp_all [forall_getElem?_cons, accepts, comparable]
  · rintro ⟨arity, each⟩
    cases parent with
    | binding =>
      obtain ⟨a, b, rfl⟩ := List.length_eq_two.mp arity
      obtain rfl : a = .relationName := of_decide_eq_true (each 0 a rfl)
      obtain rfl : b = .variableName := of_decide_eq_true (each 1 b rfl)
      exact .binding
    | reference =>
      obtain ⟨a, b, rfl⟩ := List.length_eq_two.mp arity
      obtain rfl : a = .variableName := of_decide_eq_true (each 0 a rfl)
      obtain rfl : b = .propertyName := of_decide_eq_true (each 1 b rfl)
      exact .reference
    | repetition =>
      obtain ⟨a, rfl⟩ := List.length_eq_one_iff.mp arity
      exact .repetition (each 0 a rfl)
    | negation =>
      obtain ⟨a, rfl⟩ := List.length_eq_one_iff.mp arity
      exact .negation (each 0 a rfl)
    | sequence =>
      obtain ⟨a, b, rfl⟩ := List.length_eq_two.mp arity
      exact .sequence (each 0 a rfl) (each 1 b rfl)
    | alternative =>
      obtain ⟨a, b, rfl⟩ := List.length_eq_two.mp arity
      exact .alternative (each 0 a rfl) (each 1 b rfl)
    | filter =>
      obtain ⟨a, b, rfl⟩ := List.length_eq_two.mp arity
      exact .filter (each 0 a rfl) (each 1 b rfl)
    | conjunction =>
      obtain ⟨a, b, rfl⟩ := List.length_eq_two.mp arity
      exact .conjunction (each 0 a rfl) (each 1 b rfl)
    | disjunction =>
      obtain ⟨a, b, rfl⟩ := List.length_eq_two.mp arity
      exact .disjunction (each 0 a rfl) (each 1 b rfl)
    | predicate =>
      obtain ⟨a, b, c, rfl⟩ := List.length_eq_three.mp arity
      obtain rfl : b = .comparison := of_decide_eq_true (each 1 b rfl)
      rcases comparable_eq_true_iff.mp (each 0 a rfl) with ⟨rfl, rfl⟩ | ⟨rfl, rfl⟩
      · exact .referenceFirst
      · exact .valueFirst
    | relationName | variableName | comparison | propertyName | value => cases inner

/-- Whether a child is accepted is a matter of the kinds at the places ruled with its own. -/
theorem accepts_congr (same : ∀ i ∈ parent.ruledWith index, row[i]? = kinds[i]?) :
    parent.accepts row index child = parent.accepts kinds index child := by
  cases parent with
  | predicate =>
    by_cases middle : index = 1
    · rw [accepts, accepts, if_pos middle, if_pos middle]
    · have operands : ∀ i ∈ [0, 2], row[i]? = kinds[i]? := by
        simpa only [ruledWith, ne_eq, middle, not_false_eq_true, and_self, if_true] using same
      rw [accepts, accepts, if_neg middle, if_neg middle, operands 0 (by simp),
        operands 2 (by simp)]
  | _ => rfl

theorem mem_ruledWith (inside : index < parent.arity) : index ∈ parent.ruledWith index := by
  unfold ruledWith
  split
  · rename_i operand
    obtain ⟨rfl, other⟩ := operand
    have places : index < 3 := inside
    simp only [List.mem_cons, List.not_mem_nil, or_false]
    omega
  · exact List.mem_singleton_self index

/-- A child that is not accepted is in a place that is forbidden to it. -/
theorem forbids_of_not_accepts (inner : parent.isLeaf = false) (inside : index < parent.arity)
    (found : kinds[index]? = some child) (refused : ¬ parent.accepts kinds index child = true) :
    parent.Forbids kinds index := by
  intro row arranged
  apply Decidable.byContradiction
  intro none
  have same : ∀ i ∈ parent.ruledWith index, row[i]? = kinds[i]? := by
    intro i ruled
    apply Decidable.byContradiction
    exact fun differs => none ⟨i, ruled, differs⟩
  have here : row[index]? = some child := (same index (mem_ruledWith inside)).trans found
  have accepted := ((arranges_iff inner).mp arranged).2 index child here
  exact refused (accepts_congr same ▸ accepted)

end Kind

section Node

variable {kind : Kind} {children : List Query} {token : Option (Located Token)}
  {value : Option Float} {defect : Defect}

theorem validateLeaf_eq_ok_iff : validateLeaf kind token value = .ok () ↔
    token.isSome = true ∧ (kind = .value → value.isSome = true) := by
  unfold validateLeaf
  cases token <;> cases value <;> simp

theorem holdsOf_of_validateLeaf (isLeaf : kind.isLeaf = true)
    (failed : validateLeaf kind token value = .error defect) :
    defect.HoldsOf (node kind children token value) := by
  unfold validateLeaf at failed
  split at failed
  · rename_i missing
    cases failed
    exact ⟨rfl, isLeaf, Option.isNone_iff_eq_none.mp missing⟩
  · split at failed
    · rename_i missing
      cases failed
      exact ⟨missing.1, Option.isNone_iff_eq_none.mp missing.2⟩
    · cases failed

/-- The root of a valid tree is regular, and the trees below it are valid. -/
theorem regular_of_validate (valid : (node kind children token value).validate = .ok ()) :
    (node kind children token value).Regular ∧ ∀ child ∈ children, child.validate = .ok () := by
  rw [validate] at valid
  split at valid
  · cases valid
  · rename_i same
    have arity : children.length = kind.arity := Decidable.not_not.mp same
    split at valid
    · rename_i isLeaf
      obtain ⟨held, number⟩ := validateLeaf_eq_ok_iff.mp valid
      have bare : children = [] := by
        have none : kind.arity = 0 := of_decide_eq_true isLeaf
        exact List.length_eq_zero_iff.mp (arity.trans none)
      refine ⟨⟨arity, ?_, fun _ => held, number⟩, by simp [bare]⟩
      show kind.Arranges (children.map Query.kind)
      rw [bare]
      exact .leaf isLeaf
    · rename_i inner
      have isLeaf : kind.isLeaf = false := by simpa using inner
      have each := validateAll_eq_ok_iff.mp valid
      refine ⟨⟨arity, ?_, fun leaf => absurd leaf inner, ?_⟩, fun child member => ?_⟩
      · refine (Kind.arranges_iff isLeaf).mpr ⟨by rw [List.length_map]; exact arity, ?_⟩
        intro i k found
        rw [List.getElem?_map] at found
        obtain ⟨child, here, rfl⟩ := Option.map_eq_some_iff.mp found
        have accepted := (each i child here).1
        rwa [Nat.zero_add] at accepted
      · rintro rfl
        cases isLeaf
      · obtain ⟨i, here⟩ := List.mem_iff_getElem?.mp member
        exact (each i child here).2

/-- A defect among children is one of a child, or of the place that a child is in. -/
theorem cases_of_validateAll {parent : Kind} {kinds : List Kind} {rest : List Query} :
    ∀ {index : Nat}, validateAll parent kinds index rest = .error defect →
      ∃ i child, rest[i]? = some child ∧ (child.validate = .error defect ∨
        ¬ parent.accepts kinds (index + i) child.kind = true ∧
          defect = .wrongChild parent child.kind (index + i)) := by
  induction rest with
  | nil =>
    intro index failed
    cases failed
  | cons child rest ih =>
    intro index failed
    rw [validateAll] at failed
    split at failed
    · split at failed
      · rename_i inner found
        cases failed
        exact ⟨0, child, rfl, .inl found⟩
      · obtain ⟨i, other, found, why⟩ := ih failed
        refine ⟨i + 1, other, found, ?_⟩
        rw [Nat.add_assoc, Nat.add_comm 1 i] at why
        exact why
    · rename_i refused
      cases failed
      exact ⟨0, child, rfl, .inr ⟨refused, rfl⟩⟩

/-- The defect of a tree is one of its root or of a tree below it. -/
theorem holdsOf_or_below (failed : (node kind children token value).validate = .error defect) :
    defect.HoldsOf (node kind children token value) ∨
      ∃ (i : Nat) (child : Query),
        children[i]? = some child ∧ child.validate = .error defect := by
  rw [validate] at failed
  split at failed
  · rename_i other
    cases failed
    exact .inl ⟨rfl, rfl, other⟩
  · rename_i same
    split at failed
    · rename_i isLeaf
      exact .inl (holdsOf_of_validateLeaf isLeaf failed)
    · rename_i inner
      obtain ⟨i, child, found, why⟩ := cases_of_validateAll failed
      rw [Nat.zero_add] at why
      rcases why with below | ⟨refused, rfl⟩
      · exact .inr ⟨i, child, found, below⟩
      · left
        refine ⟨rfl, ⟨child, found, rfl⟩, ?_⟩
        have arity : children.length = kind.arity := Decidable.not_not.mp same
        have inside : i < kind.arity := by
          rw [← arity]
          exact (List.getElem?_eq_some_iff.mp found).1
        have named : (children.map Query.kind)[i]? = some child.kind := by
          rw [List.getElem?_map, found, Option.map_some]
        exact Kind.forbids_of_not_accepts (by simpa using inner) inside named refused

end Node

/-- A node with a defect is not regular. -/
theorem Defect.HoldsOf.not_regular {n : Query} {defect : Defect} (holds : defect.HoldsOf n) :
    ¬ n.Regular := by
  intro regular
  cases defect with
  | wrongArity kind found =>
    obtain ⟨rfl, rfl, other⟩ := holds
    exact other regular.arity
  | wrongChild kind child index =>
    obtain ⟨rfl, _, forbids⟩ := holds
    obtain ⟨i, _, differs⟩ := forbids _ regular.arranged
    exact differs rfl
  | missingToken kind =>
    obtain ⟨rfl, isLeaf, missing⟩ := holds
    have held := regular.token isLeaf
    rw [missing] at held
    cases held
  | missingValue =>
    obtain ⟨isValue, missing⟩ := holds
    have held := regular.number isValue
    rw [missing] at held
    cases held

theorem regular_of_at? (q : Query) (valid : q.validate = .ok ()) :
    ∀ path n, q.at? path = some n → n.Regular := by
  induction q using nested_induction with
  | node kind children token value each =>
    obtain ⟨root, below⟩ := regular_of_validate valid
    intro path n here
    cases path with
    | nil =>
      cases here
      exact root
    | cons i rest =>
      obtain ⟨child, found, inside⟩ := Option.bind_eq_some_iff.mp here
      have member : child ∈ children := List.mem_of_getElem? found
      exact each child member (below child member) rest n inside

theorem exists_of_validate_error (q : Query) {defect : Defect}
    (failed : q.validate = .error defect) :
    ∃ path n, q.at? path = some n ∧ defect.HoldsOf n := by
  induction q using nested_induction with
  | node kind children token value each =>
    rcases holdsOf_or_below failed with here | ⟨i, child, found, below⟩
    · exact ⟨[], _, rfl, here⟩
    · obtain ⟨path, n, inside, holds⟩ := each child (List.mem_of_getElem? found) below
      refine ⟨i :: path, n, ?_, holds⟩
      rw [at?, Query.children, found, Option.bind_some, inside]

/-- A tree of whatever shape is validated without a look at what is not there. It is valid just where
all its nodes are regular, and a defect that is reported is one of its nodes. -/
theorem validate_decides (q : Query) :
    q.validate? = some q.validate ∧
    (q.validate = .ok () ↔ ∀ path n, q.at? path = some n → n.Regular) ∧
    ∀ defect, q.validate = .error defect →
      ∃ path n, q.at? path = some n ∧ defect.HoldsOf n := by
  have defective : ∀ defect, q.validate = .error defect →
      ∃ path n, q.at? path = some n ∧ defect.HoldsOf n :=
    fun _ failed => q.exists_of_validate_error failed
  refine ⟨q.validate?_eq, ⟨q.regular_of_at?, fun regular => ?_⟩, defective⟩
  cases checked : q.validate with
  | ok done => rfl
  | error defect =>
    obtain ⟨path, n, here, holds⟩ := defective defect checked
    exact absurd (regular path n here) holds.not_regular

/-- A negation of two values compared with each other. -/
def valuesCompared : Query :=
  branch .negation
    [branch .predicate [leaf .value ⟨.number "1", .origin⟩,
      leaf .comparison ⟨.comparison .less, .origin⟩, leaf .value ⟨.number "2", .origin⟩]]

theorem valuesCompared_defective :
    valuesCompared.validate = .error (.wrongChild .predicate .value 0) ∧
      ∃ path n, valuesCompared.at? path = some n ∧
        (Defect.wrongChild .predicate .value 0).HoldsOf n := by
  have failed : valuesCompared.validate = .error (.wrongChild .predicate .value 0) := by rfl
  obtain ⟨_, _, defective⟩ := validate_decides valuesCompared
  exact ⟨failed, defective _ failed⟩

end EventQuery.Query
