import EventQuery.Proofs.Query.Nodes

set_option autoImplicit false

namespace EventQuery.Query

/-- The node at an address. -/
def at? : Query → List Nat → Option Query
  | q, [] => some q
  | q, i :: rest => q.children[i]?.bind fun child => child.at? rest

/-- The first address leads to a node above the other, or to its left. -/
def Precedes : List Nat → List Nat → Prop
  | [], _ :: _ => True
  | i :: rest, j :: others => i < j ∨ i = j ∧ Precedes rest others
  | _, [] => False

theorem Precedes.asymm : ∀ {a b : List Nat}, Precedes a b → ¬ Precedes b a
  | [], _ :: _, _ => fun back => back
  | i :: rest, j :: others, before => by
    rintro (less | ⟨same, back⟩) <;> rcases before with less' | ⟨same', onward⟩
    · omega
    · omega
    · omega
    · exact Precedes.asymm onward back

mutual

/-- Every node with its address. -/
def addressed : Query → List (List Nat × Query)
  | node kind children token value =>
    ([], node kind children token value) :: addressedFrom 0 children

/-- The nodes of children that are numbered from `i` on. -/
def addressedFrom (i : Nat) : List Query → List (List Nat × Query)
  | [] => []
  | q :: rest => (addressed q).map (fun e => (i :: e.1, e.2)) ++ addressedFrom (i + 1) rest

end

theorem map_snd_addressedFrom (i : Nat) (children : List Query)
    (each : ∀ child ∈ children, child.addressed.map Prod.snd = child.nodes) :
    (addressedFrom i children).map Prod.snd = children.flatMap nodes := by
  induction children generalizing i with
  | nil => rfl
  | cons q rest ih =>
    have later := ih (i + 1) fun child member => each child (List.mem_cons_of_mem q member)
    rw [addressedFrom, List.map_append, List.map_map, later, List.flatMap_cons,
      ← each q List.mem_cons_self]
    rfl

theorem map_snd_addressed (q : Query) : q.addressed.map Prod.snd = q.nodes := by
  induction q using nested_induction with
  | node kind children token value each =>
    rw [addressed, List.map_cons, map_snd_addressedFrom 0 children each, nodes_node]

theorem mem_addressedFrom {path : List Nat} {n : Query} (children : List Query) :
    ∀ i : Nat, (∀ child ∈ children, ∀ rest, (rest, n) ∈ child.addressed ↔ child.at? rest = some n) →
      ((path, n) ∈ addressedFrom i children ↔ ∃ j rest, path = (i + j) :: rest ∧
        (children[j]?.bind fun child => child.at? rest) = some n) := by
  induction children with
  | nil =>
    intro i _
    constructor
    · intro absent
      cases absent
    · rintro ⟨_, _, _, ⟨⟩⟩
  | cons q others ih =>
    intro i each
    have later := ih (i + 1) fun child member => each child (List.mem_cons_of_mem q member)
    rw [addressedFrom, List.mem_append, later, List.mem_map]
    constructor
    · rintro (⟨⟨rest, m⟩, member, same⟩ | ⟨j, rest, rfl, found⟩)
      · cases same
        exact ⟨0, rest, rfl, (each q List.mem_cons_self rest).mp member⟩
      · refine ⟨j + 1, rest, ?_, found⟩
        rw [Nat.add_right_comm, Nat.add_assoc]
    · rintro ⟨j, rest, rfl, found⟩
      cases j with
      | zero => exact .inl ⟨(rest, n), (each q List.mem_cons_self rest).mpr found, rfl⟩
      | succ j =>
        refine .inr ⟨j, rest, ?_, found⟩
        rw [Nat.add_right_comm, Nat.add_assoc]

/-- A node is listed with an address just where it stands there. -/
theorem mem_addressed_iff (q : Query) {n : Query} :
    ∀ path, (path, n) ∈ q.addressed ↔ q.at? path = some n := by
  induction q using nested_induction with
  | node kind children token value each =>
    intro path
    rw [addressed, List.mem_cons, mem_addressedFrom children 0 each]
    cases path with
    | nil =>
      constructor
      · rintro (same | ⟨_, _, same, _⟩)
        · cases same
          rfl
        · cases same
      · rintro ⟨⟩
        exact .inl rfl
    | cons i rest =>
      constructor
      · rintro (same | ⟨j, rest', same, found⟩)
        · cases same
        · cases same
          rw [Nat.zero_add] at *
          exact found
      · intro found
        exact .inr ⟨i, rest, by rw [Nat.zero_add], found⟩

theorem mem_nodes_iff {q n : Query} : n ∈ q.nodes ↔ ∃ path, q.at? path = some n := by
  rw [← map_snd_addressed, List.mem_map]
  constructor
  · rintro ⟨⟨path, m⟩, listed, rfl⟩
    exact ⟨path, (q.mem_addressed_iff path).mp listed⟩
  · rintro ⟨path, here⟩
    exact ⟨(path, n), (q.mem_addressed_iff path).mpr here, rfl⟩

theorem pairwise_addressedFrom (children : List Query)
    (each : ∀ child ∈ children, child.addressed.Pairwise fun e e' => Precedes e.1 e'.1) :
    ∀ i : Nat, (addressedFrom i children).Pairwise fun e e' => Precedes e.1 e'.1 := by
  induction children with
  | nil => exact fun _ => List.Pairwise.nil
  | cons q others ih =>
    intro i
    rw [addressedFrom, List.pairwise_append]
    refine ⟨?inside,
      ih (fun child member => each child (List.mem_cons_of_mem q member)) (i + 1), ?apart⟩
    case inside =>
      rw [List.pairwise_map]
      exact (each q List.mem_cons_self).imp fun before => .inr ⟨rfl, before⟩
    case apart =>
      intro e first e' second
      obtain ⟨inner, _, rfl⟩ := List.mem_map.mp first
      obtain ⟨path, n⟩ := e'
      have listed :=
        (mem_addressedFrom others (i + 1) fun child _ => mem_addressed_iff child).mp second
      obtain ⟨j, rest, rfl, _⟩ := listed
      left
      omega

theorem pairwise_addressed (q : Query) :
    q.addressed.Pairwise fun e e' => Precedes e.1 e'.1 := by
  induction q using nested_induction with
  | node kind children token value each =>
    rw [addressed, List.pairwise_cons]
    refine ⟨fun e member => ?_, pairwise_addressedFrom children each 0⟩
    obtain ⟨path, n⟩ := e
    have listed := (mem_addressedFrom children 0 fun child _ => mem_addressed_iff child).mp member
    obtain ⟨j, rest, rfl, _⟩ := listed
    trivial

/-- The foremost address where the nodes of a tree have a property. -/
def Foremost (q : Query) (has : Query → Prop) (path : List Nat) : Prop :=
  (∃ n, q.at? path = some n ∧ has n) ∧
    ∀ other n, q.at? other = some n → has n → other = path ∨ Precedes path other

theorem Foremost.unique {q : Query} {has : Query → Prop} {path other : List Nat}
    (first : q.Foremost has path) (second : q.Foremost has other) : path = other := by
  obtain ⟨⟨n, here, holds⟩, before⟩ := first
  obtain ⟨⟨m, there, holds'⟩, before'⟩ := second
  rcases before other m there holds' with same | earlier
  · exact same.symm
  · rcases before' path n here holds with same | later
    · exact same
    · exact absurd later earlier.asymm

/-- What is found first among the nodes stands at the foremost address. -/
theorem foremost_of_find? {q n : Query} {has : Query → Bool} (found : q.nodes.find? has = some n) :
    ∃ path, q.at? path = some n ∧ q.Foremost (has · = true) path := by
  rw [← map_snd_addressed, List.find?_map] at found
  obtain ⟨⟨path, m⟩, first, rfl⟩ := Option.map_eq_some_iff.mp found
  obtain ⟨holds, before, after, split, others⟩ := List.find?_eq_some_iff_append.mp first
  have listed : (path, m) ∈ q.addressed := List.mem_of_find?_eq_some first
  have here := (q.mem_addressed_iff path).mp listed
  refine ⟨path, here, ⟨m, here, holds⟩, fun other k there holds' => ?_⟩
  have order := q.pairwise_addressed
  have member := (q.mem_addressed_iff other).mpr there
  rw [split] at order member
  rcases List.mem_append.mp member with earlier | rest
  · have missing := others _ earlier
    simp only [Function.comp_apply, holds'] at missing
    cases missing
  · rcases List.mem_cons.mp rest with same | later
    · exact .inl (congrArg Prod.fst same)
    · have behind := (List.pairwise_cons.mp (List.pairwise_append.mp order).2.1).1
      exact .inr (behind _ later)

theorem find?_eq_some_iff_foremost {q : Query} {has : Query → Bool} {n : Query} :
    q.nodes.find? has = some n ↔
      ∃ path, q.at? path = some n ∧ q.Foremost (has · = true) path := by
  refine ⟨foremost_of_find?, fun found => ?_⟩
  obtain ⟨path, here, foremost⟩ := found
  obtain ⟨m, there, holds⟩ := foremost.1
  cases here.symm.trans there
  have listed : n ∈ q.nodes := mem_nodes_iff.mpr ⟨path, here⟩
  obtain ⟨k, found⟩ := Option.isSome_iff_exists.mp (List.find?_isSome.mpr ⟨n, listed, holds⟩)
  obtain ⟨other, stands, again⟩ := foremost_of_find? found
  cases foremost.unique again
  cases here.symm.trans stands
  exact found

end EventQuery.Query
