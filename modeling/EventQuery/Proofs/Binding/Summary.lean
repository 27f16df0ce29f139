import EventQuery.Binding.Resolution
import EventQuery.Proofs.Binding.Spelling

set_option autoImplicit false

namespace EventQuery.Binding

theorem eraseDups_concat_of_mem {a : String} {l : List String} (present : a ∈ l) :
    (l ++ [a]).eraseDups = l.eraseDups := by
  have none : [a].removeAll l = [] := by simp [List.removeAll, present]
  rw [List.eraseDups_append, none, List.eraseDups_nil, List.append_nil]

theorem eraseDups_concat_of_not_mem {a : String} {l : List String} (absent : a ∉ l) :
    (l ++ [a]).eraseDups = l.eraseDups ++ [a] := by
  have same : [a].removeAll l = [a] := by simp [List.removeAll, absent]
  rw [List.eraseDups_append, same, List.eraseDups_cons, List.filter_nil, List.eraseDups_nil]

theorem nodup_eraseDups {α : Type} [BEq α] [LawfulBEq α] (l : List α) : l.eraseDups.Nodup := by
  match l with
  | [] => exact List.nodup_nil
  | a :: rest =>
    rw [List.eraseDups_cons, List.nodup_cons]
    refine ⟨fun member => ?_, nodup_eraseDups _⟩
    have kept := List.mem_filter.mp (List.mem_eraseDups.mp member)
    simp at kept
termination_by l.length
decreasing_by exact Nat.lt_succ_of_le (List.length_filter_le _ _)

theorem mem_insertText {text : String} {l : List String} {p : String} :
    p ∈ insertText text l ↔ p = text ∨ p ∈ l := by
  induction l with
  | nil => simp [insertText]
  | cons t rest ih =>
    unfold insertText
    split
    · rename_i same
      simp [same]
    · split
      · simp
      · rw [List.mem_cons, List.mem_cons, ih]
        exact or_left_comm

/-- Texts in order stay in order, and none comes twice. -/
theorem pairwise_insertText {text : String} {l : List String} (ordered : l.Pairwise (· < ·)) :
    (insertText text l).Pairwise (· < ·) := by
  induction l with
  | nil => exact List.pairwise_singleton ..
  | cons t rest ih =>
    obtain ⟨first, later⟩ := List.pairwise_cons.mp ordered
    unfold insertText
    split
    · exact ordered
    · rename_i other
      split
      · rename_i before
        refine List.pairwise_cons.mpr ⟨fun p member => ?_, ordered⟩
        cases member with
        | head => exact before
        | tail _ member => exact String.lt_trans before (first p member)
      · rename_i after
        have behind : t < text :=
          Std.lt_of_le_of_ne (String.not_lt.mp after) fun same => other same.symm
        refine List.pairwise_cons.mpr ⟨fun p member => ?_, ih later⟩
        rcases mem_insertText.mp member with rfl | member
        · exact behind
        · exact first p member

/-- The sites that bind a variable. -/
def sitesOf (name : String) (sites : List Site) : List Site := sites.filter (·.name = name)

/-- The variable has the relations of the sites that bind it, the place of the first of them and
their number, and the properties that references ask of it. -/
structure Variable.Summarizes (v : Variable) (sites : List Site) (references : List Reference) :
    Prop where
  relations : v.relations = ((sitesOf v.name sites).map (·.relation)).eraseDups
  span : (sitesOf v.name sites).head?.map (·.span) = some v.span
  count : v.count = (sitesOf v.name sites).length
  asked : ∀ p, p ∈ v.properties ↔ ∃ r ∈ references, r.name = v.name ∧ r.property = p
  ordered : v.properties.Pairwise (· < ·)

/-- The table has the variables of the sites in the order of their first bindings, each with what is
said about it. -/
structure Table.Summarizes (t : Table) (sites : List Site) (references : List Reference) :
    Prop where
  names : t.entries.map (·.name) = (sites.map (·.name)).eraseDups
  entries : ∀ v ∈ t.entries, v.Summarizes sites references

variable {v : Variable} {t : Table} {s : Site} {r : Reference} {name : String} {sites : List Site}
  {references : List Reference}

theorem sitesOf_concat_same (same : s.name = name) :
    sitesOf name (sites ++ [s]) = sitesOf name sites ++ [s] := by
  have kept : [s].filter (·.name = name) = [s] := by simp [same]
  rw [sitesOf, List.filter_append, kept, sitesOf]

theorem sitesOf_concat_other (other : s.name ≠ name) :
    sitesOf name (sites ++ [s]) = sitesOf name sites := by
  have dropped : [s].filter (·.name = name) = [] := by simp [other]
  rw [sitesOf, List.filter_append, dropped, List.append_nil, sitesOf]

theorem sitesOf_eq_nil (absent : name ∉ sites.map (·.name)) : sitesOf name sites = [] := by
  apply List.filter_eq_nil_iff.mpr
  intro s member same
  exact absent (List.mem_map.mpr ⟨s, member, of_decide_eq_true same⟩)

namespace Variable.Summarizes

theorem otherSite (sums : v.Summarizes sites references) (other : s.name ≠ v.name) :
    v.Summarizes (sites ++ [s]) references := by
  obtain ⟨relations, span, count, asked, ordered⟩ := sums
  rw [← sitesOf_concat_other other] at relations span count
  exact ⟨relations, span, count, asked, ordered⟩

theorem addRelation (sums : v.Summarizes sites references) (same : s.name = v.name) :
    (Table.addRelation s.relation v).Summarizes (sites ++ [s]) references := by
  obtain ⟨relations, span, count, asked, ordered⟩ := sums
  have own : sitesOf v.name (sites ++ [s]) = sitesOf v.name sites ++ [s] := sitesOf_concat_same same
  refine ⟨?relations, ?span, ?count, asked, ordered⟩
  case relations =>
    show (if v.relations.contains s.relation then v.relations else v.relations ++ [s.relation]) = _
    rw [Table.addRelation, own, List.map_append, List.map_singleton]
    split
    · rename_i known
      rw [List.contains_iff_mem, relations, List.mem_eraseDups] at known
      rw [eraseDups_concat_of_mem known, relations]
    · rename_i new
      rw [List.contains_iff_mem, relations, List.mem_eraseDups] at new
      rw [eraseDups_concat_of_not_mem new, relations]
  case span =>
    obtain ⟨first, found, place⟩ := Option.map_eq_some_iff.mp span
    rw [Table.addRelation, own, List.head?_append, found, Option.some_or, Option.map_some, place]
  case count => rw [Table.addRelation, own, List.length_append, List.length_singleton, count]

theorem first (fresh : s.name ∉ sites.map (·.name)) :
    Variable.Summarizes ⟨s.name, [s.relation], [], s.span, 1⟩ (sites ++ [s]) [] := by
  have own : sitesOf s.name (sites ++ [s]) = [s] := by
    rw [sitesOf_concat_same rfl, sitesOf_eq_nil fresh, List.nil_append]
  refine ⟨?_, ?_, ?_, fun p => ?_, List.Pairwise.nil⟩
  · rw [own]
    rfl
  · rw [own]
    rfl
  · rw [own]
    rfl
  · simp

theorem otherReference (sums : v.Summarizes sites references) (other : r.name ≠ v.name) :
    v.Summarizes sites (references ++ [r]) := by
  refine ⟨sums.relations, sums.span, sums.count, fun p => ?_, sums.ordered⟩
  rw [sums.asked p]
  constructor
  · rintro ⟨r', member, asks⟩
    exact ⟨r', List.mem_append_left _ member, asks⟩
  · rintro ⟨r', member, asks⟩
    rcases List.mem_append.mp member with earlier | last
    · exact ⟨r', earlier, asks⟩
    · rw [List.mem_singleton.mp last] at asks
      exact absurd asks.1 other

theorem addProperty (sums : v.Summarizes sites references) (same : r.name = v.name) :
    Variable.Summarizes { v with properties := insertText r.property v.properties } sites
      (references ++ [r]) := by
  refine ⟨sums.relations, sums.span, sums.count, fun p => ?_, pairwise_insertText sums.ordered⟩
  rw [mem_insertText, sums.asked p]
  constructor
  · rintro (rfl | ⟨r', member, asks⟩)
    · exact ⟨r, List.mem_append_right _ (List.mem_singleton_self r), same, rfl⟩
    · exact ⟨r', List.mem_append_left _ member, asks⟩
  · rintro ⟨r', member, asks⟩
    rcases List.mem_append.mp member with earlier | last
    · exact .inr ⟨r', earlier, asks⟩
    · rw [List.mem_singleton.mp last] at asks
      exact .inl asks.2.symm

end Variable.Summarizes

theorem Table.names_update {change : Variable → Variable}
    (kept : ∀ v : Variable, (change v).name = v.name) :
    (t.update name change).entries.map (·.name) = t.entries.map (·.name) := by
  rw [Table.update, List.map_map]
  apply List.map_congr_left
  intro v _
  show (if v.name = name then change v else v).name = v.name
  split
  · exact kept v
  · rfl

namespace Table.Summarizes

theorem empty : Table.empty.Summarizes [] [] := ⟨rfl, fun _ absent => by cases absent⟩

theorem contains_iff (sums : t.Summarizes sites references) :
    t.contains name = true ↔ name ∈ sites.map (·.name) := by
  rw [← List.mem_eraseDups, ← sums.names, List.mem_map, Table.contains, Table.find?,
    List.find?_isSome]
  simp only [decide_eq_true_eq]

/-- A change that keeps names, of the variable of one name and no other. -/
theorem update {sites' : List Site} {references' : List Reference} {change : Variable → Variable}
    (sums : t.Summarizes sites references) (kept : ∀ v : Variable, (change v).name = v.name)
    (names : (sites'.map (·.name)).eraseDups = (sites.map (·.name)).eraseDups)
    (here : ∀ v : Variable, v.Summarizes sites references → v.name = name →
      (change v).Summarizes sites' references')
    (elsewhere : ∀ v : Variable, v.Summarizes sites references → v.name ≠ name →
      v.Summarizes sites' references') :
    (t.update name change).Summarizes sites' references' := by
  constructor
  · rw [names, ← sums.names, names_update kept]
  · intro w member
    obtain ⟨v, listed, rfl⟩ := List.mem_map.mp member
    split
    · rename_i same
      exact here v (sums.entries v listed) same
    · rename_i other
      exact elsewhere v (sums.entries v listed) other

/-- Before any reference is made, one more site makes the table a summary of one more. -/
theorem bind (sums : t.Summarizes sites []) (s : Site) :
    (t.bind s).Summarizes (sites ++ [s]) [] := by
  have row : (sites ++ [s]).map (·.name) = sites.map (·.name) ++ [s.name] := List.map_append
  unfold Table.bind
  split
  · rename_i known
    have present : s.name ∈ sites.map (·.name) := sums.contains_iff.mp known
    refine sums.update (fun _ => rfl) ?_ (fun v own same => own.addRelation same.symm)
      fun v own other => own.otherSite (Ne.symm other)
    rw [row, eraseDups_concat_of_mem present]
  · rename_i new
    have fresh : s.name ∉ sites.map (·.name) := fun present => new (sums.contains_iff.mpr present)
    constructor
    · rw [row, eraseDups_concat_of_not_mem fresh, ← sums.names, List.map_append, List.map_singleton]
    · intro v member
      rcases List.mem_append.mp member with listed | last
      · refine (sums.entries v listed).otherSite ?_
        rintro same
        have present : v.name ∈ t.entries.map (·.name) := List.mem_map.mpr ⟨v, listed, rfl⟩
        rw [sums.names, List.mem_eraseDups, ← same] at present
        exact fresh present
      · rw [List.mem_singleton.mp last]
        exact Variable.Summarizes.first fresh

theorem refer (sums : t.Summarizes sites references) (r : Reference) :
    (t.refer r).Summarizes sites (references ++ [r]) :=
  sums.update (fun _ => rfl) rfl (fun _ own same => own.addProperty same.symm)
    fun _ own other => own.otherReference (Ne.symm other)

theorem names_nodup (sums : t.Summarizes sites references) : (t.entries.map (·.name)).Nodup := by
  rw [sums.names]
  exact nodup_eraseDups _

/-- The numbers of variables are their places among the distinct names. -/
theorem id?_eq_some_iff (sums : t.Summarizes sites references) (i : Nat) (name : String) :
    t.id? name = some i ↔ (sites.map (·.name)).eraseDups[i]? = some name := by
  have distinct := sums.names_nodup
  rw [← sums.names, Table.id?, List.findIdx?_eq_some_iff_getElem, List.getElem?_eq_some_iff]
  simp only [List.length_map, List.getElem_map, decide_eq_true_eq]
  constructor
  · rintro ⟨within, same, _⟩
    exact ⟨within, same⟩
  · rintro ⟨within, same⟩
    refine ⟨within, same, fun j before again => ?_⟩
    have here : i < (t.entries.map (·.name)).length := by
      rw [List.length_map]
      exact within
    have apart := List.pairwise_iff_getElem.mp distinct j i (Nat.lt_trans before here) here before
    rw [List.getElem_map, List.getElem_map, same, again] at apart
    exact apart rfl

end Table.Summarizes

theorem bindAll_summarizes (rest : List Site) :
    ∀ {t : Table} {sites : List Site} (again : List Site), t.Summarizes sites [] →
      (bindAll t again rest).1.Summarizes (sites ++ rest) [] := by
  induction rest with
  | nil =>
    intro t sites again sums
    rw [List.append_nil]
    exact sums
  | cons s rest ih =>
    intro t sites again sums
    have whole := ih (if t.rebinds s then s :: again else again) (sums.bind s)
    rwa [List.append_assoc] at whole

theorem referAll_summarizes (rest : List Reference) :
    ∀ {t t' : Table} {references : List Reference}, t.Summarizes sites references →
      referAll t rest = .ok t' → t'.Summarizes sites (references ++ rest) := by
  induction rest with
  | nil =>
    intro t t' references sums ended
    cases ended
    rwa [List.append_nil]
  | cons r rest ih =>
    intro t t' references sums ended
    unfold referAll at ended
    split at ended
    · have whole := ih (sums.refer r) ended
      rwa [List.append_assoc] at whole
    · cases ended

/-- The fault is the first reference to a variable that no site binds. -/
theorem referAll_eq_error_iff (rest : List Reference) :
    ∀ {t : Table} {references : List Reference} {e : ResolutionError},
      t.Summarizes sites references →
      (referAll t rest = .error e ↔
        rest.find? (fun r => r.name ∉ sites.map (·.name)) = some e.reference) := by
  induction rest with
  | nil =>
    intro t references e _
    constructor
    · intro failed
      cases failed
    · intro found
      cases found
  | cons r rest ih =>
    intro t references e sums
    rw [referAll, List.find?_cons]
    by_cases bound : r.name ∈ sites.map (·.name)
    · rw [if_pos (sums.contains_iff.mpr bound), ih (sums.refer r)]
      simp [bound]
    · have absent : ¬ t.contains r.name = true := fun known => bound (sums.contains_iff.mp known)
      rw [if_neg absent]
      simp only [bound, not_false_eq_true, decide_true]
      constructor
      · rintro ⟨⟩
        rfl
      · intro found
        rw [Option.some.inj found]

theorem summarizes_sites (q : Query) : (bindAll .empty [] q.sites).1.Summarizes q.sites [] := by
  have whole := bindAll_summarizes q.sites [] Table.Summarizes.empty
  rwa [List.nil_append] at whole

theorem resolve_eq_error_iff (q : Query) (e : ResolutionError) :
    resolve q = .error e ↔
      q.references.find? (fun r => r.name ∉ q.sites.map (·.name)) = some e.reference :=
  referAll_eq_error_iff q.references (summarizes_sites q)

theorem summarizes_of_resolve {q : Query} {t : Table} (ended : resolve q = .ok t) :
    t.Summarizes q.sites q.references := by
  have sums := referAll_summarizes q.references (summarizes_sites q) ended
  rwa [List.nil_append] at sums

/-- Resolving fails where some reference is to a variable that no site binds. -/
theorem exists_error_iff (q : Query) :
    (∃ e, resolve q = .error e) ↔ ∃ r ∈ q.references, ∀ b ∈ q.sites, b.name ≠ r.name := by
  have unbound (r : Reference) :
      r.name ∉ q.sites.map (·.name) ↔ ∀ b ∈ q.sites, b.name ≠ r.name := by simp
  constructor
  · rintro ⟨e, failed⟩
    have found := (resolve_eq_error_iff q e).mp failed
    have missing := List.find?_some found
    exact ⟨e.reference, List.mem_of_find?_eq_some found,
      (unbound e.reference).mp (of_decide_eq_true missing)⟩
  · rintro ⟨r, asked, missing⟩
    have some : (q.references.find? fun r => r.name ∉ q.sites.map (·.name)).isSome = true :=
      List.find?_isSome.mpr ⟨r, asked, decide_eq_true ((unbound r).mpr missing)⟩
    obtain ⟨first, found⟩ := Option.isSome_iff_exists.mp some
    exact ⟨⟨first⟩, (resolve_eq_error_iff q ⟨first⟩).mpr found⟩

theorem exists_summary {q : Query} (bound : ∀ r ∈ q.references, ∃ b ∈ q.sites, b.name = r.name) :
    ∃ t, resolve q = .ok t ∧ t.Summarizes q.sites q.references := by
  cases ended : resolve q with
  | error e =>
    obtain ⟨r, asked, missing⟩ := (exists_error_iff q).mp ⟨e, ended⟩
    obtain ⟨b, listed, same⟩ := bound r asked
    exact absurd same (missing b listed)
  | ok t => exact ⟨t, rfl, summarizes_of_resolve ended⟩

/-- What a parsed query says about its variables can be read off its tokens. If they refer to a
variable that they do not bind, the first such reference is the fault. Otherwise the table summarizes
their bindings and references, and numbers the variables in the order of their first bindings. -/
theorem resolve_reads_off (sourceName : String) (s : TokenStream) (tree : Query)
    (parsed : parseQuery sourceName s = .ok tree) :
    ((∃ e, resolve tree = .error e) ↔ ∃ r ∈ s.references, ∀ b ∈ s.sites, b.name ≠ r.name) ∧
    (∀ e, resolve tree = .error e →
      s.references.find? (fun r => r.name ∉ s.sites.map (·.name)) = some e.reference) ∧
    ((∀ r ∈ s.references, ∃ b ∈ s.sites, b.name = r.name) →
      ∃ t, resolve tree = .ok t ∧ t.Summarizes s.sites s.references ∧
        ∀ i name, t.id? name = some i ↔ (s.sites.map (·.name)).eraseDups[i]? = some name) := by
  obtain ⟨sites, references⟩ := TokenStream.spells_tree parsed
  rw [← sites, ← references]
  refine ⟨exists_error_iff tree, fun e => (resolve_eq_error_iff tree e).mp, fun bound => ?_⟩
  obtain ⟨t, ended, sums⟩ := exists_summary bound
  exact ⟨t, ended, sums, sums.id?_eq_some_iff⟩

/-- `A as x filter y.p == 0 : B as y : C as x`: a reference before its binding, and two relations for
one variable. -/
def forwardQuery : Derivation.Relations :=
  .more
    (.mk (.binding ⟨"A", .origin⟩ .origin ⟨"x", .origin⟩) none
      (some (.origin, .last (.referenceFirst ⟨⟨"y", .origin⟩, .origin, ⟨"p", .origin⟩⟩
        ⟨.equal, .origin⟩ (.last none (.last (.number Derivation.zero)))))))
    ⟨⟨.colon, .origin⟩, .sequence, rfl⟩
    (.more (.mk (.binding ⟨"B", .origin⟩ .origin ⟨"y", .origin⟩) none none)
      ⟨⟨.colon, .origin⟩, .sequence, rfl⟩
      (.last (.mk (.binding ⟨"C", .origin⟩ .origin ⟨"x", .origin⟩) none none)))

def forwardStream : TokenStream where
  tokens := forwardQuery.tokens ++ [⟨.endOfInput, .origin⟩]
  source := none
  content := forwardQuery.tokens
  finish := .origin
  significant_eq := by decide
  content_ne_end := by decide

theorem forwardStream_resolves :
    parseQuery "q" forwardStream = .ok forwardQuery.tree ∧
      ∃ t, resolve forwardQuery.tree = .ok t ∧
        t.Summarizes [⟨"A", "x", .origin⟩, ⟨"B", "y", .origin⟩, ⟨"C", "x", .origin⟩]
          [⟨"y", "p", .origin⟩] ∧
        t.id? "x" = some 0 ∧ t.id? "y" = some 1 := by
  have parsed : parseQuery "q" forwardStream = .ok forwardQuery.tree :=
    Session.parseQuery_eq_ok_iff.mpr (Grammar.exists_run forwardQuery rfl (by decide))
  obtain ⟨_, _, summary⟩ := resolve_reads_off "q" forwardStream forwardQuery.tree parsed
  obtain ⟨t, ended, sums, numbers⟩ := summary (by decide)
  exact ⟨parsed, t, ended, sums, (numbers 0 "x").mpr (by decide), (numbers 1 "y").mpr (by decide)⟩

end EventQuery.Binding
