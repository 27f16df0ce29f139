import Mathlib
import EventQuery.Proofs.Binding.Dangling
import EventQuery.Proofs.Binding.Registry

set_option autoImplicit false

namespace EventQuery

open Binding (Site Reference Table Variable resolve)

namespace Query

/-- The row has what the nodes of the tree say, each at its address, a node before what is below it
and what is below a child before what is below a later one. -/
def Lists {α : Type} (q : Query) (tells : Query → α → Prop) (row : List α) : Prop :=
  ∃ placed : List (List Nat × α), placed.map Prod.snd = row ∧
    (placed.Pairwise fun e e' => Precedes e.1 e'.1) ∧
    ∀ path a, (path, a) ∈ placed ↔ ∃ n, q.at? path = some n ∧ tells n a

section Lists

variable {α : Type} {q : Query} {tells : Query → α → Prop} {row other : List α}

theorem lists_filterMap {read : Query → Option α} (reads : ∀ n a, read n = some a ↔ tells n a)
    (q : Query) : q.Lists tells (q.nodes.filterMap read) := by
  let placed := q.addressed.filterMap fun e => (read e.2).map fun a => (e.1, a)
  refine ⟨placed, ?_, ?_, fun path a => ?_⟩
  · have second : ∀ e : List Nat × Query,
        ((read e.2).map fun a => (e.1, a)).map Prod.snd = read e.2 := by
      intro e
      cases read e.2 <;> rfl
    rw [List.map_filterMap, ← map_snd_addressed, List.filterMap_map]
    exact congrArg (List.filterMap · q.addressed) (funext second)
  · refine List.Pairwise.filterMap _ ?_ q.pairwise_addressed
    intro e e' before b first b' second
    obtain ⟨_, _, rfl⟩ := Option.map_eq_some_iff.mp first
    obtain ⟨_, _, rfl⟩ := Option.map_eq_some_iff.mp second
    exact before
  · rw [List.mem_filterMap]
    constructor
    · rintro ⟨⟨path', n⟩, member, read⟩
      obtain ⟨a', said, same⟩ := Option.map_eq_some_iff.mp read
      obtain ⟨rfl, rfl⟩ := Prod.mk.inj same
      exact ⟨n, (q.mem_addressed_iff _).mp member, (reads n _).mp said⟩
    · rintro ⟨n, here, said⟩
      refine ⟨(path, n), (q.mem_addressed_iff path).mpr here, ?_⟩
      rw [(reads n a).mpr said, Option.map_some]

/-- There is one such row. -/
theorem Lists.unique (first : q.Lists tells row) (second : q.Lists tells other) : row = other := by
  obtain ⟨placed, rfl, ordered, holds⟩ := first
  obtain ⟨placed', rfl, ordered', holds'⟩ := second
  let before : List Nat × α → List Nat × α → Prop := fun e e' => Precedes e.1 e'.1
  have : Std.Irrefl before := ⟨fun _ self => self.asymm self⟩
  have : Std.Antisymm before := ⟨fun _ _ onward back => absurd back onward.asymm⟩
  have members : ∀ e, e ∈ placed ↔ e ∈ placed' := fun e =>
    (holds e.1 e.2).trans (holds' e.1 e.2).symm
  rw [List.Pairwise.eq_of_mem_iff (r := before) ordered ordered' members]

end Lists

theorem lists_sites (q : Query) : q.Lists Ties q.sites :=
  lists_filterMap (fun _ _ => site?_eq_some_iff) q

theorem lists_references (q : Query) : q.Lists Asks q.references :=
  lists_filterMap (fun _ _ => reference?_eq_some_iff) q

end Query

namespace Binding

/-- The table holds what the bindings and the references come to, and answers for it: each variable
has its place as its number, stands under its name, and is found there. -/
structure Table.Tabulates (t : Table) (sites : List Site) (references : List Reference) : Prop where
  summary : t.Summarizes sites references
  places : ∀ i, t.get? i = t.entries[i]?
  numbers : ∀ i v, t.get? i = some v → t.id? v.name = some i
  finds : ∀ name v, t.find? name = some v ↔ v ∈ t.entries ∧ v.name = name
  contains : ∀ name, t.contains name = true ↔ ∃ s ∈ sites, s.name = name
  bindings : (t.entries.map (·.count)).sum = sites.length
  asked : t.referenceCount = (references.map fun r => (r.name, r.property)).eraseDups.length

namespace Table.Summarizes

variable {t : Table} {sites : List Site} {references : List Reference}

/-- A name leads to one variable only. -/
theorem find?_eq_some_iff (sums : t.Summarizes sites references) (name : String) (v : Variable) :
    t.find? name = some v ↔ v ∈ t.entries ∧ v.name = name := by
  constructor
  · intro found
    have named := List.find?_some found
    exact ⟨List.mem_of_find?_eq_some found, of_decide_eq_true named⟩
  · rintro ⟨listed, named⟩
    have some : (t.entries.find? (·.name = name)).isSome = true :=
      List.find?_isSome.mpr ⟨v, listed, decide_eq_true named⟩
    obtain ⟨w, found⟩ := Option.isSome_iff_exists.mp some
    have named' := List.find?_some found
    have one : w = v := List.inj_on_of_nodup_map sums.names_nodup
      (List.mem_of_find?_eq_some found) listed ((of_decide_eq_true named').trans named.symm)
    rw [Table.find?, found, one]

theorem id?_of_get? (sums : t.Summarizes sites references) {i : Nat} {v : Variable}
    (here : t.get? i = some v) : t.id? v.name = some i := by
  rw [sums.id?_eq_some_iff, ← sums.names, List.getElem?_map]
  exact congrArg (Option.map (·.name)) here

/-- Every binding is counted for its variable. -/
theorem sum_count (sums : t.Summarizes sites references) :
    (t.entries.map (·.count)).sum = sites.length := by
  have each : ∀ v ∈ t.entries, v.count = (sites.map (·.name)).count v.name := by
    intro v listed
    rw [(sums.entries v listed).count, sitesOf, List.count, List.countP_map,
      List.countP_eq_length_filter]
    rfl
  have same : (sites.map (·.name)).eraseDups.Perm (sites.map (·.name)).dedup :=
    (List.perm_ext_iff_of_nodup (nodup_eraseDups _) (List.nodup_dedup _)).mpr fun name => by
      rw [List.mem_eraseDups, List.mem_dedup]
  calc (t.entries.map (·.count)).sum
      = ((t.entries.map (·.name)).map fun name => (sites.map (·.name)).count name).sum := by
        rw [List.map_map, List.map_congr_left each]
        rfl
    _ = ((sites.map (·.name)).dedup.map fun name => (sites.map (·.name)).count name).sum := by
        rw [sums.names, (same.map _).sum_eq]
    _ = sites.length := by
        rw [List.sum_map_count_dedup_eq_length, List.length_map]

/-- The pairs of a variable and a property that the table holds. -/
def pairs (t : Table) : List (String × String) :=
  t.entries.flatMap fun v => v.properties.map fun p => (v.name, p)

theorem length_pairs (t : Table) : (pairs t).length = t.referenceCount := by
  have each (entries : List Variable) :
      (pairs ⟨entries⟩).length = Table.referenceCount ⟨entries⟩ := by
    induction entries with
    | nil => rfl
    | cons v rest ih =>
      have here : (v.properties.map fun p => (v.name, p)).length = v.properties.length :=
        List.length_map _
      rw [pairs, List.flatMap_cons, List.length_append, here]
      exact congrArg (v.properties.length + ·) ih
  exact each t.entries

theorem nodup_pairs (sums : t.Summarizes sites references) : (pairs t).Nodup := by
  rw [pairs, List.nodup_flatMap]
  constructor
  · intro v listed
    have ordered := (sums.entries v listed).ordered
    have distinct : v.properties.Nodup := ordered.imp fun less => String.ne_of_lt less
    exact distinct.map fun p p' same => (Prod.mk.inj same).2
  · have apart := List.pairwise_map.mp sums.names_nodup
    refine apart.imp fun {v w} other => ?_
    intro pair first second
    obtain ⟨p, _, rfl⟩ := List.mem_map.mp first
    obtain ⟨p', _, same⟩ := List.mem_map.mp second
    exact other (Prod.mk.inj same).1.symm

/-- The table holds the pairs that are asked for, if all these variables are bound. -/
theorem mem_pairs_iff (sums : t.Summarizes sites references)
    (bound : ∀ r ∈ references, ∃ s ∈ sites, s.name = r.name) (pair : String × String) :
    pair ∈ pairs t ↔ pair ∈ references.map fun r => (r.name, r.property) := by
  rw [pairs, List.mem_flatMap, List.mem_map]
  constructor
  · rintro ⟨v, listed, member⟩
    obtain ⟨p, held, rfl⟩ := List.mem_map.mp member
    obtain ⟨r, asked, owner, property⟩ := ((sums.entries v listed).asked p).mp held
    exact ⟨r, asked, Prod.ext owner property⟩
  · rintro ⟨r, asked, rfl⟩
    obtain ⟨s, binds, named⟩ := bound r asked
    have known : r.name ∈ t.entries.map (·.name) := by
      rw [sums.names, List.mem_eraseDups, ← named]
      exact List.mem_map_of_mem binds
    obtain ⟨v, listed, owner⟩ := List.mem_map.mp known
    have held := ((sums.entries v listed).asked r.property).mpr ⟨r, asked, owner.symm, rfl⟩
    exact ⟨v, listed, List.mem_map.mpr ⟨r.property, held, by rw [owner]⟩⟩

theorem referenceCount_eq (sums : t.Summarizes sites references)
    (bound : ∀ r ∈ references, ∃ s ∈ sites, s.name = r.name) :
    t.referenceCount = (references.map fun r => (r.name, r.property)).eraseDups.length := by
  rw [← length_pairs]
  apply List.Perm.length_eq
  rw [List.perm_ext_iff_of_nodup sums.nodup_pairs (nodup_eraseDups _)]
  intro pair
  rw [sums.mem_pairs_iff bound, List.mem_eraseDups]

/-- What the table is a summary of, it tabulates, if there is no reference to what is not bound. -/
theorem tabulates (sums : t.Summarizes sites references)
    (bound : ∀ r ∈ references, ∃ s ∈ sites, s.name = r.name) : t.Tabulates sites references where
  summary := sums
  places _ := rfl
  numbers _ _ here := sums.id?_of_get? here
  finds := sums.find?_eq_some_iff
  contains name := by rw [sums.contains_iff, List.mem_map]
  bindings := sums.sum_count
  asked := sums.referenceCount_eq bound

end Table.Summarizes

/-- The index leads to the variable that has the name. -/
theorem Registry.Mirrors.find?_eq {r : Registry} {t : Table} {sites : List Site}
    {references : List Reference} (mirrors : r.Mirrors t) (sums : t.Summarizes sites references)
    (name : String) : (r.find? name).map Prod.fst = t.find? name := by
  rw [Registry.find?, mirrors.index]
  cases known : t.id? name with
  | none =>
    have unbound := Table.id?_eq_none_iff.mp known
    rw [Table.contains, Option.isSome_eq_false_iff, Option.isNone_iff_eq_none] at unbound
    rw [unbound]
    rfl
  | some i =>
    obtain ⟨v, here, named⟩ := Table.exists_of_id? known
    have found := (sums.find?_eq_some_iff name v).mpr ⟨List.mem_of_getElem? here, named⟩
    rw [found, Option.bind_some, mirrors.entries, List.getElem?_zipIdx, here]
    rfl

open Query

/-- A tree of whatever shape that is resolved has the table of its bindings and references, each in
the order in which its nodes stand. It comes to the same with an index of the names beside the
variables, and a name leads to its variable through the index. -/
theorem resolve_tabulates (q : Query) (t : Table) (sites : List Site)
    (references : List Reference) (resolved : resolve q = .ok t) (tied : q.Lists Ties sites)
    (asked : q.Lists Asks references) :
    t.Tabulates sites references ∧
      ∃ r, Registry.resolve? q = some (.ok r) ∧ r.Mirrors t ∧
        ∀ name, (r.find? name).map Prod.fst = t.find? name := by
  obtain rfl : sites = q.sites := tied.unique (lists_sites q)
  obtain rfl : references = q.references := asked.unique (lists_references q)
  have sums := summarizes_of_resolve resolved
  have same := Registry.resolve?_mirrors q
  rw [resolved] at same
  obtain ⟨r, found, mirrors⟩ := same
  refine ⟨sums.tabulates fun r listed => ?_, r, found, mirrors, mirrors.find?_eq sums⟩
  apply Decidable.byContradiction
  intro unbound
  obtain ⟨e, failed⟩ := (exists_error_iff q).mpr
    ⟨r, listed, fun s binds named => unbound ⟨s, binds, named⟩⟩
  rw [resolved] at failed
  cases failed

section Scattered

/-- A leaf of a name, in no place. -/
def named (kind : Kind) (name : String) : Query := leaf kind ⟨.word name, .origin⟩

/-- A reference before the bindings, with a child too many, a binding with a child too few, bindings
below a reference and below a leaf, and a name that is missing. -/
def scatteredTree : Query :=
  branch .sequence
    [branch .reference [named .variableName "x", named .propertyName "p", branch .value []],
      branch .binding [named .relationName "A"],
      branch .binding [named .relationName "A", named .variableName "x"],
      branch .reference
        [branch .binding [named .relationName "B", branch .variableName []],
          .node .propertyName
            [branch .binding [named .relationName "C", named .variableName "x"]] none none],
      branch .reference [named .variableName "x", named .propertyName "p"]]

def scatteredTable : Table :=
  ⟨[⟨"x", ["A", "C"], ["p"], .origin, 2⟩, ⟨"", ["B"], [""], .origin, 1⟩]⟩

theorem scatteredTree_tabulates :
    resolve scatteredTree = .ok scatteredTable ∧
      scatteredTable.Tabulates
        [⟨"A", "x", .origin⟩, ⟨"B", "", .origin⟩, ⟨"C", "x", .origin⟩]
        [⟨"x", "p", .origin⟩, ⟨"", "", .origin⟩, ⟨"x", "p", .origin⟩] ∧
      ∃ r, Registry.resolve? scatteredTree = some (.ok r) ∧ r.Mirrors scatteredTable := by
  have resolved : resolve scatteredTree = .ok scatteredTable := by rfl
  have sites : scatteredTree.sites =
      [⟨"A", "x", .origin⟩, ⟨"B", "", .origin⟩, ⟨"C", "x", .origin⟩] := by rfl
  have references : scatteredTree.references =
      [⟨"x", "p", .origin⟩, ⟨"", "", .origin⟩, ⟨"x", "p", .origin⟩] := by rfl
  have tied := lists_sites scatteredTree
  have asked := lists_references scatteredTree
  rw [sites] at tied
  rw [references] at asked
  obtain ⟨tabulates, r, found, mirrors, _⟩ :=
    resolve_tabulates scatteredTree scatteredTable _ _ resolved tied asked
  exact ⟨resolved, tabulates, r, found, mirrors⟩

end Scattered

end Binding

end EventQuery
