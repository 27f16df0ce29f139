import EventQuery.Proofs.Binding.Summary
import EventQuery.Proofs.Query.Address

set_option autoImplicit false

namespace EventQuery

open Binding (Site Reference ResolutionError resolve)

namespace Query

/-- A binding node of two children or more binds the text of its second child. A child without a
token has the empty text. -/
def Binds (n : Query) (name : String) : Prop :=
  n.kind = .binding ∧ ∃ relation owner, n.children[0]? = some relation ∧
    n.children[1]? = some owner ∧ owner.text?.getD "" = name

/-- A binding node of two children or more ties the text of its second child to that of its first, at
the place of the second. -/
def Ties (n : Query) (s : Site) : Prop :=
  n.kind = .binding ∧ ∃ relation owner, n.children[0]? = some relation ∧
    n.children[1]? = some owner ∧
    s = ⟨relation.text?.getD "", owner.text?.getD "", owner.span?.getD .origin⟩

/-- A reference node of two children or more asks for the text of its second child, of the variable
that is the text of its first child and at the place of that child. -/
def Asks (n : Query) (r : Reference) : Prop :=
  n.kind = .reference ∧ ∃ owner property, n.children[0]? = some owner ∧
    n.children[1]? = some property ∧
    r = ⟨owner.text?.getD "", property.text?.getD "", owner.span?.getD .origin⟩

/-- Some node of the tree binds the name. -/
def Bound (q : Query) (name : String) : Prop :=
  ∃ path n, q.at? path = some n ∧ n.Binds name

/-- The node asks for a property of a variable that is bound nowhere in the tree. -/
def Dangles (q n : Query) : Prop := ∃ r, n.Asks r ∧ ¬ q.Bound r.name

theorem reference?_eq_some_iff {n : Query} {r : Reference} : n.reference? = some r ↔ n.Asks r := by
  obtain ⟨kind, children, token, value⟩ := n
  constructor
  · intro read
    unfold reference? at read
    split at read
    · rename_i name property others asks listed
      cases read
      refine ⟨asks, name, property, ?_, ?_, rfl⟩ <;> rw [listed] <;> rfl
    · cases read
  · rintro ⟨asks, owner, property, first, second, rfl⟩
    cases asks
    match children, first, second with
    | _ :: _ :: _, rfl, rfl => rfl

theorem site?_eq_some_iff {n : Query} {s : Site} : n.site? = some s ↔ n.Ties s := by
  obtain ⟨kind, children, token, value⟩ := n
  constructor
  · intro read
    unfold site? at read
    split at read
    · rename_i relation owner others binds listed
      cases read
      refine ⟨binds, relation, owner, ?_, ?_, rfl⟩ <;> rw [listed] <;> rfl
    · cases read
  · rintro ⟨binds, relation, owner, first, second, rfl⟩
    cases binds
    match children, first, second with
    | _ :: _ :: _, rfl, rfl => rfl

theorem exists_site?_iff {n : Query} {name : String} :
    (∃ s, n.site? = some s ∧ s.name = name) ↔ n.Binds name := by
  simp only [site?_eq_some_iff]
  constructor
  · rintro ⟨s, ⟨binds, relation, owner, first, second, rfl⟩, named⟩
    exact ⟨binds, relation, owner, first, second, named⟩
  · rintro ⟨binds, relation, owner, first, second, named⟩
    exact ⟨_, ⟨binds, relation, owner, first, second, rfl⟩, named⟩

theorem mem_names_iff {q : Query} {name : String} : name ∈ q.sites.map (·.name) ↔ q.Bound name := by
  rw [List.mem_map]
  constructor
  · rintro ⟨s, listed, named⟩
    obtain ⟨n, inside, read⟩ := List.mem_filterMap.mp listed
    obtain ⟨path, here⟩ := mem_nodes_iff.mp inside
    exact ⟨path, n, here, exists_site?_iff.mp ⟨s, read, named⟩⟩
  · rintro ⟨path, n, here, binds⟩
    obtain ⟨s, read, named⟩ := exists_site?_iff.mpr binds
    exact ⟨s, List.mem_filterMap.mpr ⟨n, mem_nodes_iff.mpr ⟨path, here⟩, read⟩, named⟩

/-- Whether the node asks for a property of a variable that no site of the tree binds. -/
def dangles (q n : Query) : Bool := n.reference?.any fun r => r.name ∉ q.sites.map (·.name)

theorem dangles_iff {q n : Query} : q.dangles n = true ↔ q.Dangles n := by
  rw [dangles, Option.any_eq_true]
  simp only [reference?_eq_some_iff, decide_eq_true_eq, mem_names_iff]
  rfl

end Query

namespace Binding

open Query

/-- A tree of whatever shape is not resolved when one of its nodes asks for a property of a variable
that none of its nodes binds. The fault is what the foremost of these nodes asks for. -/
theorem resolve_fails_foremost (q : Query) :
    ((∃ e, resolve q = .error e) ↔ ∃ path n, q.at? path = some n ∧ q.Dangles n) ∧
    ∀ e, resolve q = .error e ↔
      ∃ path n, q.at? path = some n ∧ n.Asks e.reference ∧ q.Foremost q.Dangles path := by
  have dangling : (q.dangles · = true) = q.Dangles := funext fun n => propext dangles_iff
  have fails (e : ResolutionError) : resolve q = .error e ↔
      ∃ path n, q.at? path = some n ∧ n.Asks e.reference ∧ q.Foremost q.Dangles path := by
    have first : resolve q = .error e ↔
        (q.nodes.find? q.dangles).bind reference? = some e.reference := by
      rw [resolve_eq_error_iff, references, List.find?_filterMap]
      rfl
    rw [first, Option.bind_eq_some_iff]
    constructor
    · rintro ⟨n, found, read⟩
      obtain ⟨path, here, foremost⟩ := find?_eq_some_iff_foremost.mp found
      rw [dangling] at foremost
      exact ⟨path, n, here, reference?_eq_some_iff.mp read, foremost⟩
    · rintro ⟨path, n, here, asks, foremost⟩
      rw [← dangling] at foremost
      exact ⟨n, find?_eq_some_iff_foremost.mpr ⟨path, here, foremost⟩,
        reference?_eq_some_iff.mpr asks⟩
  refine ⟨⟨?_, ?_⟩, fails⟩
  · rintro ⟨e, failed⟩
    obtain ⟨path, _, _, _, ⟨n, here, holds⟩, _⟩ := (fails e).mp failed
    exact ⟨path, n, here, holds⟩
  · rintro ⟨path, n, here, r, asks, unbound⟩
    refine (exists_error_iff q).mpr ⟨r, ?_, fun b listed named => ?_⟩
    · exact List.mem_filterMap.mpr
        ⟨n, mem_nodes_iff.mpr ⟨path, here⟩, reference?_eq_some_iff.mpr asks⟩
    · exact unbound (mem_names_iff.mp (List.mem_map.mpr ⟨b, listed, named⟩))

end Binding

end EventQuery
