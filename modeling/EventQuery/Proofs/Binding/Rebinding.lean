import EventQuery.Proofs.Binding.Summary

/- How often a query binds a variable to a further relation. Such a site adds one relation to the
variable that it names, and every other site adds none, so the sites count the relations beyond
the first of each variable. -/

set_option autoImplicit false

namespace EventQuery.Binding

variable {t t' : Table} {v : Variable} {name : String} {sites : List Site}
  {references : List Reference}

/-- The relations beyond the first of each variable. -/
def Table.further (t : Table) : Nat :=
  t.entries.foldr (fun v total => v.relations.length - 1 + total) 0

namespace Table.Summarizes

/-- A variable has the relation of the site that bound it first. -/
theorem relations_ne_nil (sums : t.Summarizes sites references) (listed : v ∈ t.entries) :
    v.relations ≠ [] := by
  have own := sums.entries v listed
  obtain ⟨first, found, _⟩ := Option.map_eq_some_iff.mp own.span
  have bound : first.relation ∈ (sitesOf v.name sites).map (·.relation) :=
    List.mem_map_of_mem (List.mem_of_head? found)
  rw [own.relations]
  exact List.ne_nil_of_mem (List.mem_eraseDups.mpr bound)

/-- The variable of a name stands alone in the table, so a change of that name is a change of it. -/
theorem exists_split (sums : t.Summarizes sites references) (found : t.find? name = some v) :
    ∃ before after, t.entries = before ++ v :: after ∧
      ∀ change, t.update name change = ⟨before ++ change v :: after⟩ := by
  obtain ⟨named, before, after, split, others⟩ := List.find?_eq_some_iff_append.mp found
  have same : v.name = name := of_decide_eq_true named
  have distinct := sums.names_nodup
  rw [split, List.map_append, List.map_cons] at distinct
  have behind : v.name ∉ after.map (·.name) :=
    (List.nodup_cons.mp (List.nodup_append.mp distinct).2.1).1
  refine ⟨before, after, split, fun change => ?_⟩
  have kept (l : List Variable) (apart : ∀ w ∈ l, w.name ≠ name) :
      (l.map fun w => if w.name = name then change w else w) = l := by
    conv => rhs; rw [← List.map_id l]
    exact List.map_congr_left fun w member => if_neg (apart w member)
  have front := kept before fun w member => by simpa using others w member
  have back := kept after fun w member again =>
    behind (List.mem_map.mpr ⟨w, member, again.trans same.symm⟩)
  rw [Table.update, split, List.map_append, List.map_cons, front, back, if_pos same]

end Table.Summarizes

theorem further_cons (v : Variable) (rest : List Variable) :
    Table.further ⟨v :: rest⟩ = v.relations.length - 1 + Table.further ⟨rest⟩ := rfl

theorem further_append (before after : List Variable) :
    Table.further ⟨before ++ after⟩ = Table.further ⟨before⟩ + Table.further ⟨after⟩ := by
  induction before with
  | nil => exact (Nat.zero_add _).symm
  | cons v rest ih => rw [List.cons_append, further_cons, further_cons, ih, Nat.add_assoc]

/-- A site adds a relation beyond the first just where it binds its variable again. -/
theorem further_bind (sums : t.Summarizes sites []) (s : Site) :
    (t.bind s).further = t.further + if t.rebinds s then 1 else 0 := by
  unfold Table.bind Table.rebinds Table.contains
  cases found : t.find? s.name with
  | none =>
    show Table.further ⟨t.entries ++ [_]⟩ = t.further + 0
    rw [further_append]
    rfl
  | some v =>
    obtain ⟨before, after, split, change⟩ := sums.exists_split found
    have listed : v ∈ t.entries := List.mem_of_find?_eq_some found
    have some : 0 < v.relations.length := List.length_pos_iff.mpr (sums.relations_ne_nil listed)
    have whole : t.further = Table.further ⟨before ++ v :: after⟩ := by rw [← split]
    have added : (Table.addRelation s.relation v).relations.length - 1 =
        (v.relations.length - 1) + if (!v.relations.contains s.relation) = true then 1 else 0 := by
      unfold Table.addRelation
      cases v.relations.contains s.relation
      · simp only [Bool.false_eq_true, if_false, List.length_append, List.length_singleton,
          Bool.not_false, if_true]
        omega
      · rfl
    simp only [Option.isSome_some, if_true]
    rw [change, whole, further_append, further_append, further_cons, further_cons, added]
    omega

/-- A reference adds no relation. -/
theorem further_refer (t : Table) (r : Reference) : (t.refer r).further = t.further := by
  unfold Table.further Table.refer Table.update
  rw [List.foldr_map]
  congr 1
  funext v total
  split <;> rfl

theorem length_bindAll (rest : List Site) :
    ∀ {t : Table} {sites : List Site} (again : List Site), t.Summarizes sites [] →
      (bindAll t again rest).2.length + t.further =
        again.length + (bindAll t again rest).1.further := by
  induction rest with
  | nil =>
    intro t sites again _
    rfl
  | cons s rest ih =>
    intro t sites again sums
    have later := ih (if t.rebinds s then s :: again else again) (sums.bind s)
    have step := further_bind sums s
    rw [bindAll]
    cases again_bound : t.rebinds s <;> rw [again_bound] at later step <;>
      simp only [Bool.false_eq_true, if_false, if_true, List.length_cons] at later step ⊢ <;>
      omega

theorem further_referAll (rest : List Reference) :
    ∀ {t : Table}, referAll t rest = .ok t' → t'.further = t.further := by
  induction rest with
  | nil =>
    intro t ended
    cases ended
    rfl
  | cons r rest ih =>
    intro t ended
    unfold referAll at ended
    split at ended
    · exact (ih ended).trans (further_refer t r)
    · cases ended

theorem length_reboundSites {q : Query} (ended : resolve q = .ok t) :
    (reboundSites q).length = t.further := by
  have counted := length_bindAll q.sites [] Table.Summarizes.empty
  rw [further_referAll q.references ended, reboundSites, List.length_reverse]
  simpa [Table.further, Table.empty] using counted

end EventQuery.Binding
