import EventQuery.Proofs.Binding.Summary

/- A table in two parts. The variables stand in a row, each with its number, and an index has the
number of each name; the parts are changed apart, and what the index leads to must be there.
Resolving with both comes to the table that is found by name. -/

set_option autoImplicit false

namespace EventQuery.Binding

theorem set_zipIdx {α : Type} (row : List α) (i : Nat) (a : α) :
    row.zipIdx.set i (a, i) = (row.set i a).zipIdx := by
  apply List.ext_getElem?
  intro j
  rw [List.getElem?_zipIdx, List.getElem?_set, List.getElem?_set, List.length_zipIdx,
    List.getElem?_zipIdx, Nat.zero_add]
  split
  · rename_i place
    subst place
    split <;> rfl
  · rfl

namespace Table

variable {t : Table} {name : String} {i : Nat} {v : Variable} {change : Variable → Variable}

theorem id?_eq_none_iff : t.id? name = none ↔ t.contains name = false := by
  rw [id?, List.findIdx?_eq_none_iff, contains, find?, Option.isSome_eq_false_iff,
    Option.isNone_iff_eq_none, List.find?_eq_none]
  simp

theorem contains_of_id? (known : t.id? name = some i) : t.contains name = true := by
  cases found : t.contains name with
  | true => rfl
  | false =>
    rw [id?_eq_none_iff.mpr found] at known
    cases known

theorem exists_of_id? (known : t.id? name = some i) : ∃ v, t.entries[i]? = some v ∧ v.name = name := by
  obtain ⟨within, same, _⟩ := List.findIdx?_eq_some_iff_getElem.mp known
  exact ⟨t.entries[i], List.getElem?_eq_getElem within, of_decide_eq_true same⟩

/-- Numbers are a matter of the names alone. -/
theorem id?_congr {t' : Table} (names : t'.entries.map (·.name) = t.entries.map (·.name))
    (name : String) : t'.id? name = t.id? name := by
  have read (t : Table) : t.id? name = (t.entries.map (·.name)).findIdx? (· = name) := by
    rw [List.findIdx?_map]
    rfl
  rw [read, read, names]

/-- Where names are distinct, a change to a name is one to its place. -/
theorem update_eq_set (distinct : (t.entries.map (·.name)).Nodup) (here : t.entries[i]? = some v) :
    (t.update v.name change).entries = t.entries.set i (change v) := by
  have within : i < t.entries.length := (List.getElem?_eq_some_iff.mp here).1
  apply List.ext_getElem?
  intro j
  rw [update, List.getElem?_map]
  by_cases place : i = j
  · subst place
    rw [List.getElem?_set_self within, here, Option.map_some, if_pos rfl]
  · rw [List.getElem?_set_ne place]
    cases there : t.entries[j]? with
    | none => rfl
    | some w =>
      have other : w.name ≠ v.name := by
        intro same
        have short : i < (t.entries.map (·.name)).length := by rwa [List.length_map]
        refine place ((List.getElem?_inj short distinct).mp ?_)
        rw [List.getElem?_map, List.getElem?_map, here, there, Option.map_some, Option.map_some,
          same]
      rw [Option.map_some, if_neg other]

end Table

structure Registry where
  entries : List (Variable × Nat)
  index : List (String × Nat)

namespace Registry

def empty : Registry := ⟨[], []⟩

/-- The variable that the index leads to. -/
def find? (r : Registry) (name : String) : Option (Variable × Nat) :=
  (r.index.lookup name).bind fun i => r.entries[i]?

/-- Changes the variable in a place. There is no result where no variable is. -/
def change? (r : Registry) (i : Nat) (change : Variable → Variable) : Option Registry :=
  r.entries[i]?.map fun (v, number) =>
    { r with entries := r.entries.set i (change v, number) }

/-- A known name leads to its variable, and a new one is given the next number. -/
def bind? (r : Registry) (s : Site) : Option Registry :=
  match r.index.lookup s.name with
  | some i => r.change? i (Table.addRelation s.relation)
  | none =>
    let number := r.entries.length
    some ⟨r.entries ++ [(⟨s.name, [s.relation], [], s.span, 1⟩, number)],
      (s.name, number) :: r.index⟩

def bindAll? (r : Registry) : List Site → Option Registry
  | [] => some r
  | s :: rest => (r.bind? s).bind fun r => bindAll? r rest

def referAll? (r : Registry) : List Reference → Option (Except ResolutionError Registry)
  | [] => some (.ok r)
  | asked :: rest =>
    match r.index.lookup asked.name with
    | some i =>
      (r.change? i fun v => { v with properties := insertText asked.property v.properties }).bind
        fun r => referAll? r rest
    | none => some (.error ⟨asked⟩)

def resolve? (q : Query) : Option (Except ResolutionError Registry) :=
  (empty.bindAll? q.sites).bind fun r => r.referAll? q.references

/-- The registry has the variables of the table, numbered in order, and its index the places that the
names have there. -/
structure Mirrors (r : Registry) (t : Table) : Prop where
  entries : r.entries = t.entries.zipIdx
  index : ∀ name, r.index.lookup name = t.id? name

variable {r : Registry} {t : Table} {sites : List Site} {references : List Reference} {name : String}

theorem mirrors_empty : empty.Mirrors .empty := ⟨rfl, fun _ => rfl⟩

/-- What the index leads to is there, and it is the variable that has the name in the table. -/
theorem Mirrors.change (mirrors : r.Mirrors t) (distinct : (t.entries.map (·.name)).Nodup) {i : Nat}
    (change : Variable → Variable) (kept : ∀ v : Variable, (change v).name = v.name)
    (known : t.id? name = some i) :
    ∃ r', r.change? i change = some r' ∧ r'.Mirrors (t.update name change) := by
  obtain ⟨v, here, rfl⟩ := Table.exists_of_id? known
  have found : r.entries[i]? = some (v, i) := by
    rw [mirrors.entries, List.getElem?_zipIdx, here, Option.map_some, Nat.zero_add]
  refine ⟨_, by rw [change?, found, Option.map_some], ?_, fun other => ?_⟩
  · show r.entries.set i (change v, i) = _
    rw [Table.update_eq_set distinct here, mirrors.entries, set_zipIdx]
  · rw [Table.id?_congr (Table.names_update kept)]
    exact mirrors.index other

theorem Mirrors.bind (mirrors : r.Mirrors t) (distinct : (t.entries.map (·.name)).Nodup) (s : Site) :
    ∃ r', r.bind? s = some r' ∧ r'.Mirrors (t.bind s) := by
  unfold bind? Table.bind
  rw [mirrors.index]
  cases known : t.id? s.name with
  | some i =>
    rw [if_pos (Table.contains_of_id? known)]
    exact mirrors.change distinct _ (fun _ => rfl) known
  | none =>
    have unbound : ¬ t.contains s.name = true := by
      rw [Table.id?_eq_none_iff.mp known]
      exact Bool.false_ne_true
    have count : r.entries.length = t.entries.length := by
      rw [mirrors.entries, List.length_zipIdx]
    rw [if_neg unbound]
    refine ⟨_, rfl, ?_, fun name => ?_⟩
    · rw [count, mirrors.entries, List.zipIdx_append, List.zipIdx_singleton, Nat.zero_add]
    · rw [Table.id?, List.findIdx?_append, List.findIdx?_singleton, List.lookup_cons, count]
      by_cases same : name = s.name
      · subst same
        rw [Table.id?] at known
        simp [known]
      · have apart : ¬ s.name = name := fun other => same other.symm
        have behind := mirrors.index name
        rw [Table.id?] at behind
        simp [beq_eq_false_iff_ne.mpr same, apart, behind]

theorem Mirrors.bindAll (mirrors : r.Mirrors t) (sums : t.Summarizes sites []) (again rest : List Site) :
    ∃ r', r.bindAll? rest = some r' ∧ r'.Mirrors (Binding.bindAll t again rest).1 := by
  induction rest generalizing r t sites again with
  | nil => exact ⟨r, rfl, mirrors⟩
  | cons s rest ih =>
    obtain ⟨r', step, mirrors'⟩ := mirrors.bind sums.names_nodup s
    rw [bindAll?, step]
    exact ih mirrors' (sums.bind s) _

theorem Mirrors.referAll (mirrors : r.Mirrors t) (sums : t.Summarizes sites references)
    (rest : List Reference) :
    match Binding.referAll t rest with
    | .ok t' => ∃ r', r.referAll? rest = some (.ok r') ∧ r'.Mirrors t'
    | .error e => r.referAll? rest = some (.error e) := by
  induction rest generalizing r t references with
  | nil => exact ⟨r, rfl, mirrors⟩
  | cons asked rest ih =>
    rw [referAll?, Binding.referAll, mirrors.index]
    cases known : t.id? asked.name with
    | none =>
      rw [Table.id?_eq_none_iff.mp known]
      rfl
    | some i =>
      obtain ⟨r', step, mirrors'⟩ := mirrors.change sums.names_nodup
        (fun v => { v with properties := insertText asked.property v.properties })
        (fun _ => rfl) known
      rw [if_pos (Table.contains_of_id? known)]
      dsimp only
      rw [step]
      exact ih mirrors' (sums.refer asked)

/-- Resolving with an index looks up nothing that is not there, and comes to the same. -/
theorem resolve?_mirrors (q : Query) :
    match resolve q with
    | .ok t => ∃ r, resolve? q = some (.ok r) ∧ r.Mirrors t
    | .error e => resolve? q = some (.error e) := by
  obtain ⟨r, bound, mirrors⟩ := mirrors_empty.bindAll Table.Summarizes.empty [] q.sites
  rw [resolve?, bound]
  exact mirrors.referAll (summarizes_sites q) q.references

end Registry

end EventQuery.Binding
