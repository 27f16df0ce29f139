import EventQuery.Query.Tree

set_option autoImplicit false

namespace EventQuery.Query

mutual

theorem outline_level (level other : Nat) :
    ∀ q : Query, (q.outline level).map Prod.snd = (q.outline other).map Prod.snd
  | node kind children token value => by
    simp only [outline, List.map_cons, outlineAll_level (level + 1) (other + 1) children]

theorem outlineAll_level (level other : Nat) :
    ∀ children : List Query,
      (outlineAll level children).map Prod.snd = (outlineAll other children).map Prod.snd
  | [] => rfl
  | q :: rest => by
    simp only [outlineAll, List.map_append, outline_level level other q,
      outlineAll_level level other rest]

end

theorem nodes_node (kind : Kind) (children : List Query) (token : Option (Located Token))
    (value : Option Float) :
    (node kind children token value).nodes =
      node kind children token value :: children.flatMap nodes := by
  have below (rest : List Query) : (outlineAll 1 rest).map Prod.snd = rest.flatMap nodes := by
    induction rest with
    | nil => rfl
    | cons q rest ih =>
      rw [outlineAll, List.map_append, List.flatMap_cons, ih, nodes, outline_level 1 0]
  rw [nodes, outline, List.map_cons, below]

theorem mem_nodes_of_child {kind : Kind} {children : List Query} {token : Option (Located Token)}
    {value : Option Float} {child n : Query} (member : child ∈ children) (inside : n ∈ child.nodes) :
    n ∈ (node kind children token value).nodes := by
  rw [nodes_node]
  exact List.mem_cons_of_mem _ (List.mem_flatMap.mpr ⟨child, member, inside⟩)

theorem mem_nodes_self (q : Query) : q ∈ q.nodes := by
  obtain ⟨kind, children, token, value⟩ := q
  rw [nodes_node]
  exact List.mem_cons_self

/-- What is read from the nodes of a tree whose root says nothing is read below the root. -/
theorem filterMap_nodes_branch {α : Type} {read : Query → Option α} {kind : Kind}
    {children : List Query} (silent : read (branch kind children) = none) :
    (branch kind children).nodes.filterMap read =
      children.flatMap fun q => q.nodes.filterMap read := by
  rw [branch, nodes_node, List.filterMap_cons, ← branch, silent, List.filterMap_flatMap]

section Constructors

variable (kind : Kind) (children : List Query) (token : Located Token) (number : Float)
  (range : Span)

@[simp] theorem kind_branch : (branch kind children).kind = kind := rfl

@[simp] theorem kind_leaf : (leaf kind token).kind = kind := rfl

theorem nodes_branch :
    (branch kind children).nodes = branch kind children :: children.flatMap nodes :=
  nodes_node kind children none none

@[simp] theorem nodes_leaf : (leaf kind token).nodes = [leaf kind token] := rfl

@[simp] theorem nodes_ofValue : (ofValue number range).nodes = [ofValue number range] := rfl

end Constructors

/-- What holds of all nodes holds of the root and of all nodes below it. -/
theorem forall_nodes_branch {holds : Query → Prop} {kind : Kind} {children : List Query} :
    (∀ n ∈ (branch kind children).nodes, holds n) ↔
      holds (branch kind children) ∧ ∀ child ∈ children, ∀ n ∈ child.nodes, holds n := by
  simp only [nodes_branch, List.forall_mem_cons, List.mem_flatMap]
  constructor
  · rintro ⟨root, below⟩
    exact ⟨root, fun child member n inside => below n ⟨child, member, inside⟩⟩
  · rintro ⟨root, below⟩
    refine ⟨root, fun n found => ?_⟩
    obtain ⟨child, member, inside⟩ := found
    exact below child member n inside

/-- The nodes without children. -/
def leaves (q : Query) : List Query := q.nodes.filter (·.children.isEmpty)

/-- The leaves that stand for what arithmetic comes to. -/
def valueLeaves (q : Query) : List Query := q.leaves.filter (·.kind = .value)

theorem leaves_branch (kind : Kind) {children : List Query} (present : children ≠ []) :
    (branch kind children).leaves = children.flatMap leaves := by
  have inner : (branch kind children).children.isEmpty = false := by
    simpa [branch, Query.children] using present
  rw [leaves, nodes_branch, List.filter_cons, inner, List.filter_flatMap]
  rfl

end EventQuery.Query
