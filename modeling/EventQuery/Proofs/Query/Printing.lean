import EventQuery.Proofs.Query.Nodes
import EventQuery.Query.Print

/- What a printed tree tells. Where the texts of leaves have none of the characters that stand
between the parts, a tree on one line and a tree with one node a line tell the same: the kinds of
all nodes, their children and the texts of leaves. -/

set_option autoImplicit false

namespace EventQuery.Query

mutual

/-- The same kinds, the same structure and the same texts of leaves. -/
def SameForm : Query → Query → Prop
  | node kind children token value, other =>
    kind = other.kind ∧
      (kind.isLeaf = true → (node kind children token value).text = other.text) ∧
      SameFormAll children other.children

def SameFormAll : List Query → List Query → Prop
  | [], [] => True
  | q :: rest, r :: others => SameForm q r ∧ SameFormAll rest others
  | _, _ => False

end

/-- The nodes of a tree, one a line. -/
def lines (level : Nat) (q : Query) : List Char :=
  (q.outline level).flatMap fun entry => row entry.1 entry.2

theorem lines_node (level : Nat) (kind : Kind) (children : List Query)
    (token : Option (Located Token)) (value : Option Float) :
    (node kind children token value).lines level =
      row level (node kind children token value) ++ children.flatMap (lines (level + 1)) := by
  have below (rest : List Query) : (outlineAll (level + 1) rest).flatMap
      (fun entry => row entry.1 entry.2) = rest.flatMap (lines (level + 1)) := by
    induction rest with
    | nil => rfl
    | cons q rest ih => rw [outlineAll, List.flatMap_append, List.flatMap_cons, ih, lines]
  rw [lines, outline, List.flatMap_cons, below]

theorem row_congr {q r : Query} (kind : q.kind = r.kind)
    (text : q.kind.isLeaf = true → q.text = r.text) (level : Nat) : row level q = row level r := by
  rw [row, row, ← kind]
  split
  · rename_i leaf
    rw [text leaf]
  · rfl

theorem inlineChars_node (kind : Kind) (children : List Query) (token : Option (Located Token))
    (value : Option Float) : (node kind children token value).inlineChars =
      kind.name.toList ++ '(' :: (if kind.isLeaf then (node kind children token value).text.toList
        else inlineAll children) ++ [')'] := by
  rw [inlineChars]
  rfl

mutual

theorem SameForm.inlineChars : ∀ {q r : Query}, SameForm q r → q.inlineChars = r.inlineChars
  | node kind children token value, .node _ others token' value', same => by
    obtain ⟨rfl, text, below⟩ := same
    rw [inlineChars_node, inlineChars_node]
    split
    · rename_i leaf
      rw [text leaf]
    · rw [below.inlineAll]
      rfl

theorem SameFormAll.inlineAll : ∀ {qs rs : List Query}, SameFormAll qs rs →
    Query.inlineAll qs = Query.inlineAll rs
  | [], [], _ => rfl
  | [q], [r], same => by
    rw [Query.inlineAll, Query.inlineAll, same.1.inlineChars]
  | q :: _ :: _, r :: _ :: _, same => by
    rw [Query.inlineAll, Query.inlineAll, same.1.inlineChars, same.2.inlineAll]

end

mutual

theorem SameForm.lines : ∀ {q r : Query}, SameForm q r → ∀ level, q.lines level = r.lines level
  | node kind children token value, .node _ others token' value', same, level => by
    obtain ⟨sameKind, text, below⟩ := same
    have first := row_congr (q := .node kind children token value)
      (r := .node _ others token' value') sameKind text level
    rw [lines_node, lines_node, first, below.lines]
    rfl

theorem SameFormAll.lines : ∀ {qs rs : List Query}, SameFormAll qs rs →
    ∀ level, qs.flatMap (Query.lines level) = rs.flatMap (Query.lines level)
  | [], [], _, _ => rfl
  | q :: _, r :: _, same, level => by
    rw [List.flatMap_cons, List.flatMap_cons, same.1.lines, same.2.lines]

end

/-- The characters that stand between the parts of a printed tree. -/
def isDelimiter (c : Char) : Bool := c = '(' || c = ')' || c = ',' || c = ' ' || c = '\n'

/-- Every node has as many children as its kind, and no leaf a text with a delimiter. -/
structure Printable (q : Query) : Prop where
  arity : ∀ n ∈ q.nodes, n.children.length = n.kind.arity
  plain : ∀ n ∈ q.nodes, n.kind.isLeaf = true → ∀ c ∈ n.text.toList, isDelimiter c = false

/-- What stands before the first delimiter, the delimiter, and what stands behind it. -/
theorem append_delimiter_inj {d e : Char} (stop : isDelimiter d = true)
    (stop' : isDelimiter e = true) {front behind behind' : List Char} : ∀ {front' : List Char},
      (∀ c ∈ front, isDelimiter c = false) → (∀ c ∈ front', isDelimiter c = false) →
        front ++ d :: behind = front' ++ e :: behind' →
          front = front' ∧ d = e ∧ behind = behind' := by
  induction front with
  | nil =>
    intro front' _ plain' same
    cases front' with
    | nil => exact ⟨rfl, List.cons.inj same⟩
    | cons c more =>
      have first := plain' c List.mem_cons_self
      rw [← (List.cons.inj same).1, stop] at first
      cases first
  | cons c more ih =>
    intro front' plain plain' same
    cases front' with
    | nil =>
      have first := plain c List.mem_cons_self
      rw [(List.cons.inj same).1, stop'] at first
      cases first
    | cons c' more' =>
      obtain ⟨rfl, rest⟩ := List.cons.inj same
      obtain ⟨rfl, others⟩ := ih (fun c member => plain c (List.mem_cons_of_mem _ member))
        (fun c member => plain' c (List.mem_cons_of_mem _ member)) rest
      exact ⟨rfl, others⟩

theorem plain_of_any {text : List Char} (clean : text.any isDelimiter = false) :
    ∀ c ∈ text, isDelimiter c = false := by
  simpa using clean

theorem Kind.name_plain (k : Kind) : ∀ c ∈ k.name.toList, isDelimiter c = false := by
  cases k <;> exact plain_of_any (by decide)

theorem Kind.name_inj {k k' : Kind} (same : k.name.toList = k'.name.toList) : k = k' := by
  have found := Kind.ofName?_name k
  rw [String.toList_inj.mp same, Kind.ofName?_name] at found
  exact (Option.some.inj found).symm

theorem Printable.child {kind : Kind} {children : List Query} {token : Option (Located Token)}
    {value : Option Float} (whole : Printable (.node kind children token value)) {child : Query}
    (member : child ∈ children) : Printable child where
  arity n inside := whole.arity n (mem_nodes_of_child member inside)
  plain n inside := whole.plain n (mem_nodes_of_child member inside)

theorem sameFormAll_nil {qs rs : List Query} (none : qs.length = 0) (none' : rs.length = 0) :
    SameFormAll qs rs := by
  rw [List.length_eq_zero_iff.mp none, List.length_eq_zero_iff.mp none']
  trivial

theorem length_of_isLeaf {kind : Kind} (leaf : kind.isLeaf = true) {children : List Query}
    (arity : children.length = kind.arity) : children.length = 0 := by
  rw [arity]
  simpa [Kind.isLeaf] using leaf

/-- The texts of the tree and of no tree of another form begin so, and the tree ends there. -/
def Tells (write : Query → List Char) (q : Query) : Prop :=
  ∀ r, Printable r → ∀ s t, write q ++ s = write r ++ t → SameForm q r ∧ s = t

theorem inlineAll_tells {qs : List Query} (each : ∀ q ∈ qs, Tells inlineChars q) :
    ∀ {rs : List Query}, qs.length = rs.length → (∀ r ∈ rs, Printable r) → ∀ s t,
      inlineAll qs ++ s = inlineAll rs ++ t → SameFormAll qs rs ∧ s = t := by
  induction qs with
  | nil =>
    intro rs length _ s t same
    obtain rfl := List.length_eq_zero_iff.mp length.symm
    exact ⟨trivial, same⟩
  | cons q rest ih =>
    intro rs length printable s t same
    cases rs with
    | nil => cases length
    | cons r others =>
      have head := each q List.mem_cons_self r (printable r List.mem_cons_self)
      cases rest with
      | nil =>
        obtain rfl := List.length_eq_zero_iff.mp (Nat.succ.inj length).symm
        obtain ⟨first, ends⟩ := head s t same
        exact ⟨⟨first, trivial⟩, ends⟩
      | cons q' rest' =>
        cases others with
        | nil => cases length
        | cons r' others' =>
          rw [inlineAll, inlineAll, List.append_assoc, List.append_assoc] at same
          obtain ⟨first, behind⟩ := head _ _ same
          obtain ⟨later, ends⟩ := ih (fun q member => each q (List.mem_cons_of_mem _ member))
            (Nat.succ.inj length) (fun r member => printable r (List.mem_cons_of_mem _ member)) s t
            (List.cons.inj (List.cons.inj behind).2).2
          exact ⟨⟨first, later⟩, ends⟩

theorem inlineChars_tells (q : Query) : Printable q → Tells inlineChars q := by
  induction q using nested_induction with
  | node kind children token value ih =>
    intro whole r whole' s t same
    obtain ⟨kind', children', token', value'⟩ := r
    have arity := whole.arity _ (mem_nodes_self _)
    have arity' := whole'.arity _ (mem_nodes_self _)
    have plain := whole.plain _ (mem_nodes_self _)
    have plain' := whole'.plain _ (mem_nodes_self _)
    simp only [Query.kind, Query.children] at arity arity' plain plain'
    simp only [inlineChars_node, List.append_assoc, List.cons_append, List.nil_append] at same
    obtain ⟨named, _, inner⟩ :=
      append_delimiter_inj (by decide) (by decide) kind.name_plain kind'.name_plain same
    obtain rfl := Kind.name_inj named
    by_cases leaf : kind.isLeaf = true
    · rw [if_pos leaf, if_pos leaf] at inner
      obtain ⟨text, _, ends⟩ :=
        append_delimiter_inj (by decide) (by decide) (plain leaf) (plain' leaf) inner
      exact ⟨⟨rfl, fun _ => String.toList_inj.mp text,
        sameFormAll_nil (length_of_isLeaf leaf arity) (length_of_isLeaf leaf arity')⟩, ends⟩
    · rw [if_neg leaf, if_neg leaf] at inner
      obtain ⟨below, ends⟩ := inlineAll_tells (fun q member => ih q member (whole.child member))
        (arity.trans arity'.symm) (fun r member => whole'.child member) _ _ inner
      exact ⟨⟨rfl, fun yes => absurd yes leaf, below⟩, (List.cons.inj ends).2⟩

theorem flatMap_tells {write : Query → List Char} {qs : List Query}
    (each : ∀ q ∈ qs, Tells write q) :
    ∀ {rs : List Query}, qs.length = rs.length → (∀ r ∈ rs, Printable r) → ∀ s t,
      qs.flatMap write ++ s = rs.flatMap write ++ t → SameFormAll qs rs ∧ s = t := by
  induction qs with
  | nil =>
    intro rs length _ s t same
    obtain rfl := List.length_eq_zero_iff.mp length.symm
    exact ⟨trivial, same⟩
  | cons q rest ih =>
    intro rs length printable s t same
    cases rs with
    | nil => cases length
    | cons r others =>
      rw [List.flatMap_cons, List.flatMap_cons, List.append_assoc, List.append_assoc] at same
      obtain ⟨first, behind⟩ :=
        each q List.mem_cons_self r (printable r List.mem_cons_self) _ _ same
      obtain ⟨later, ends⟩ := ih (fun q member => each q (List.mem_cons_of_mem _ member))
        (Nat.succ.inj length) (fun r member => printable r (List.mem_cons_of_mem _ member))
        s t behind
      exact ⟨⟨first, later⟩, ends⟩

/-- What stands behind the kind of a node on its line and on the lines below. -/
def lineEnd (q : Query) (below : List Char) : List Char :=
  (if q.kind.isLeaf then ' ' :: q.text.toList else []) ++ '\n' :: below

theorem lineEnd_of_leaf {q : Query} (leaf : q.kind.isLeaf = true) (below : List Char) :
    q.lineEnd below = ' ' :: (q.text.toList ++ '\n' :: below) := by
  rw [lineEnd, if_pos leaf, List.cons_append]

theorem lineEnd_of_branch {q : Query} (inner : ¬ q.kind.isLeaf = true) (below : List Char) :
    q.lineEnd below = '\n' :: below := by
  rw [lineEnd, if_neg inner, List.nil_append]

theorem lineEnd_cons (q : Query) (below : List Char) :
    ∃ d rest, q.lineEnd below = d :: rest ∧ isDelimiter d = true := by
  by_cases leaf : q.kind.isLeaf = true
  · exact ⟨' ', _, lineEnd_of_leaf leaf below, rfl⟩
  · exact ⟨'\n', _, lineEnd_of_branch leaf below, rfl⟩

theorem row_append (level : Nat) (q : Query) (below : List Char) :
    row level q ++ below =
      List.replicate (2 * level) ' ' ++ (q.kind.name.toList ++ q.lineEnd below) := by
  simp only [row, lineEnd, List.append_assoc, List.singleton_append]

theorem lines_tells (q : Query) : ∀ level, Printable q → Tells (lines level) q := by
  induction q using nested_induction with
  | node kind children token value ih =>
    intro level whole r whole' s t same
    obtain ⟨kind', children', token', value'⟩ := r
    have arity := whole.arity _ (mem_nodes_self _)
    have arity' := whole'.arity _ (mem_nodes_self _)
    have plain := whole.plain _ (mem_nodes_self _)
    have plain' := whole'.plain _ (mem_nodes_self _)
    simp only [Query.kind, Query.children] at arity arity' plain plain'
    rw [lines_node, lines_node, List.append_assoc, List.append_assoc, row_append,
      row_append] at same
    have line := List.append_cancel_left same
    have named : kind = kind' := by
      obtain ⟨d, rest, begins, stop⟩ := lineEnd_cons (.node kind children token value)
        (children.flatMap (lines (level + 1)) ++ s)
      obtain ⟨d', rest', begins', stop'⟩ := lineEnd_cons (.node kind' children' token' value')
        (children'.flatMap (lines (level + 1)) ++ t)
      rw [begins, begins'] at line
      exact Kind.name_inj (append_delimiter_inj stop stop' kind.name_plain kind'.name_plain line).1
    subst named
    have ends := List.append_cancel_left line
    have below (inner : children.flatMap (lines (level + 1)) ++ s =
        children'.flatMap (lines (level + 1)) ++ t) : SameFormAll children children' ∧ s = t :=
      flatMap_tells (fun q member => ih q member (level + 1) (whole.child member))
        (arity.trans arity'.symm) (fun r member => whole'.child member) _ _ inner
    by_cases leaf : kind.isLeaf = true
    · rw [lineEnd_of_leaf (q := .node kind children token value) leaf,
        lineEnd_of_leaf (q := .node kind children' token' value') leaf] at ends
      obtain ⟨text, _, inner⟩ := append_delimiter_inj (by decide) (by decide) (plain leaf)
        (plain' leaf) (List.cons.inj ends).2
      obtain ⟨children, finish⟩ := below inner
      exact ⟨⟨rfl, fun _ => String.toList_inj.mp text, children⟩, finish⟩
    · rw [lineEnd_of_branch (q := .node kind children token value) leaf,
        lineEnd_of_branch (q := .node kind children' token' value') leaf] at ends
      obtain ⟨children, finish⟩ := below (List.cons.inj ends).2
      exact ⟨⟨rfl, fun yes => absurd yes leaf, children⟩, finish⟩

section Printed

variable {q r : Query} (printable : Printable q) (printable' : Printable r)
include printable printable'

theorem inline_eq_iff : q.inline = r.inline ↔ SameForm q r := by
  rw [inline, inline, String.ofList_inj]
  constructor
  · intro same
    exact (inlineChars_tells q printable r printable' [] [] (by rw [same])).1
  · exact SameForm.inlineChars

theorem indented_eq_iff : q.indented = r.indented ↔ SameForm q r := by
  rw [indented, indented, String.ofList_inj]
  constructor
  · intro same
    exact (lines_tells q 0 printable r printable' [] [] (congrArg (· ++ []) same)).1
  · exact fun same => same.lines 0

end Printed

end EventQuery.Query
