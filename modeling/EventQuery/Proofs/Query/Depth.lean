import EventQuery.Query.Tree

set_option autoImplicit false

namespace EventQuery.Query

theorem depth_node (kind : Kind) (children : List Query) (token : Option (Located Token))
    (value : Option Float) : (node kind children token value).depth = 1 + depthOfAll children := by
  rw [depth]

theorem depth_le_depthOfAll {child : Query} {children : List Query} (member : child ∈ children) :
    child.depth ≤ depthOfAll children := by
  induction children with
  | nil => cases member
  | cons first rest ih =>
    rw [depthOfAll]
    rcases List.mem_cons.mp member with rfl | later
    · omega
    · have below := ih later
      omega

/-- A child is less deep than its node. -/
theorem depth_lt_of_mem {q child : Query} (member : child ∈ q.children) : child.depth < q.depth := by
  obtain ⟨kind, children, token, value⟩ := q
  have below : child.depth ≤ depthOfAll children := depth_le_depthOfAll member
  rw [depth_node]
  omega

section Constructors

variable (kind : Kind) (token : Located Token) (left right : Query)

@[simp] theorem depth_leaf : (leaf kind token).depth = 1 := by
  simp only [leaf, depth, depthOfAll]

@[simp] theorem depth_ofValue (number : Float) (range : Span) : (ofValue number range).depth = 1 := by
  simp only [ofValue, depth, depthOfAll]

@[simp] theorem depth_unary : (branch kind [left]).depth = 1 + left.depth := by
  simp only [branch, depth, depthOfAll, Nat.max_zero]

@[simp] theorem depth_binary :
    (branch kind [left, right]).depth = 1 + max left.depth right.depth := by
  simp only [branch, depth, depthOfAll, Nat.max_zero]

@[simp] theorem depth_ofBinding (relation name : Located Token) :
    (ofBinding relation name).depth = 2 := by
  simp [ofBinding]

@[simp] theorem depth_ofReference (name property : Located Token) :
    (ofReference name property).depth = 2 := by
  simp [ofReference]

@[simp] theorem depth_ofPredicate :
    (ofPredicate left token right).depth = 1 + max left.depth (max 1 right.depth) := by
  simp only [ofPredicate, branch, leaf, depth, depthOfAll, Nat.max_zero]

end Constructors

/-- Every tree of the row behind the first is a child of the one before it. The calls that are open
at a time in a function which calls itself on children only are such a row. -/
def Descends : List Query → Prop
  | q :: r :: rest => r ∈ q.children ∧ Descends (r :: rest)
  | _ => True

/-- No way down from a tree is longer than the tree is deep. -/
theorem Descends.length_le {q : Query} {below : List Query} (descends : Descends (q :: below)) :
    (q :: below).length ≤ q.depth := by
  induction below generalizing q with
  | nil =>
    obtain ⟨kind, children, token, value⟩ := q
    rw [depth_node, List.length_singleton]
    omega
  | cons r rest ih =>
    obtain ⟨member, onward⟩ := descends
    have less : r.depth < q.depth := depth_lt_of_mem member
    have long := ih onward
    rw [List.length_cons]
    omega

end EventQuery.Query
