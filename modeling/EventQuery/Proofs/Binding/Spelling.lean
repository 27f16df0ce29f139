import EventQuery.Binding.Site
import EventQuery.Grammar.Session
import EventQuery.Proofs.Grammar.Assembly
import EventQuery.Proofs.Grammar.Language

set_option autoImplicit false

namespace EventQuery

open Binding (Site Reference)
open EventQuery.Derivation (Before before_cons)

namespace Query

theorem sites_branch {kind : Kind} (other : kind ≠ .binding) (children : List Query) :
    (branch kind children).sites = children.flatMap sites := by
  apply filterMap_nodes_branch
  unfold site? branch
  split
  · rename_i same _
    exact absurd same other
  · rfl

theorem references_branch {kind : Kind} (other : kind ≠ .reference) (children : List Query) :
    (branch kind children).references = children.flatMap references := by
  apply filterMap_nodes_branch
  unfold reference? branch
  split
  · rename_i same _
    exact absurd same other
  · rfl

end Query

/-- The elements of a list with the two behind each, where there are two. -/
def triples {α : Type} : List α → List (α × α × α)
  | a :: b :: c :: rest => (a, b, c) :: triples (b :: c :: rest)
  | _ => []

/-- What begins no triple that is read can be left out. -/
theorem filterMap_triples_cons {α β : Type} {read : α × α × α → Option β} {a : α} {rest : List α}
    (silent : ∀ b c later, rest = b :: c :: later → read (a, b, c) = none) :
    (triples (a :: rest)).filterMap read = (triples rest).filterMap read := by
  match rest with
  | [] => rfl
  | [_] => rfl
  | b :: c :: later => rw [triples, List.filterMap_cons, silent b c later rfl]

namespace Binding

/-- `Relation as variable` -/
def spelledSite? : Located Token × Located Token × Located Token → Option Site
  | (relation, keyword, name) =>
    match relation.value, keyword.value, name.value with
    | .relation r, .asKeyword, .word x => some ⟨r, x, name.span⟩
    | _, _, _ => none

/-- `variable.property` -/
def spelledReference? : Located Token × Located Token × Located Token → Option Reference
  | (name, dot, property) =>
    match name.value, dot.value, property.value with
    | .word x, .dot, .word p => some ⟨x, p, name.span⟩
    | _, _, _ => none

/-- The bindings that a row of tokens spells. -/
def spelledSites (tokens : List (Located Token)) : List Site :=
  (triples tokens).filterMap spelledSite?

/-- The references that a row of tokens spells. -/
def spelledReferences (tokens : List (Located Token)) : List Reference :=
  (triples tokens).filterMap spelledReference?

theorem spelledSites_cons {t : Located Token} (other : ∀ r, t.value ≠ .relation r)
    (rest : List (Located Token)) : spelledSites (t :: rest) = spelledSites rest := by
  apply filterMap_triples_cons
  intro b c later _
  simp only [spelledSite?]
  split
  · rename_i r _ here _ _
    exact absurd here (other r)
  · rfl

theorem spelledReferences_cons {t : Located Token} (other : ∀ x, t.value ≠ .word x)
    (rest : List (Located Token)) : spelledReferences (t :: rest) = spelledReferences rest := by
  apply filterMap_triples_cons
  intro b c later _
  simp only [spelledReference?]
  split
  · rename_i x _ here _ _
    exact absurd here (other x)
  · rfl

/-- A word is a reference only where a dot follows it. -/
theorem spelledReferences_word {t : Located Token} {rest : List (Located Token)}
    (undotted : Before (· ≠ .dot) rest) :
    spelledReferences (t :: rest) = spelledReferences rest := by
  apply filterMap_triples_cons
  rintro b c later rfl
  have here : b.value ≠ .dot := undotted b rfl
  simp only [spelledReference?]
  split
  · rename_i follows _
    exact absurd follows here
  · rfl

/-- Wherever the tokens stand in a row, they add these bindings and references to what the tokens
behind them spell. A dot behind them would turn a name at their end into a reference. -/
structure Tell (tokens : List (Located Token)) (sites : List Site)
    (references : List Reference) : Prop where
  undotted : Before (· ≠ .dot) tokens
  sites : ∀ rest, spelledSites (tokens ++ rest) = sites ++ spelledSites rest
  references : ∀ rest, Before (· ≠ .dot) rest →
    spelledReferences (tokens ++ rest) = references ++ spelledReferences rest

theorem Tell.nil : Tell [] [] [] :=
  ⟨(fun _ absent => by cases absent), fun _ => rfl, fun _ _ => rfl⟩

theorem Tell.append {front back : List (Located Token)} {sites sites' : List Site}
    {references references' : List Reference} (first : Tell front sites references)
    (second : Tell back sites' references') :
    Tell (front ++ back) (sites ++ sites') (references ++ references') := by
  refine ⟨first.undotted.append second.undotted, fun rest => ?_, fun rest stop => ?_⟩
  · rw [List.append_assoc, first.sites, second.sites, List.append_assoc]
  · rw [List.append_assoc, first.references _ (second.undotted.append stop),
      second.references rest stop, List.append_assoc]

/-- A token that is no name and no dot. -/
def isMark : Token → Bool
  | .relation _ | .word _ | .dot => false
  | _ => true

theorem Tell.mark {t : Located Token} (plain : isMark t.value = true) : Tell [t] [] [] := by
  refine ⟨before_cons (fun dot => ?_) _, fun rest => ?_, fun rest _ => ?_⟩
  · rw [dot] at plain
    cases plain
  · apply spelledSites_cons
    intro r relation
    rw [relation] at plain
    cases plain
  · apply spelledReferences_cons
    intro x word
    rw [word] at plain
    cases plain

theorem Tell.marks {tokens : List (Located Token)}
    (plain : ∀ t ∈ tokens, isMark t.value = true) : Tell tokens [] [] := by
  induction tokens with
  | nil => exact Tell.nil
  | cons t rest ih =>
    obtain ⟨here, later⟩ := List.forall_mem_cons.mp plain
    exact (Tell.mark here).append (ih later)

theorem Tell.binding (relation : Located String) (keyword : Span) (name : Located String) :
    Tell [relation.token .relation, ⟨.asKeyword, keyword⟩, name.token .word]
      [⟨relation.value, name.value, name.span⟩] [] := by
  refine ⟨before_cons Token.noConfusion _, fun rest => ?_, fun rest stop => ?_⟩
  · have tail : spelledSites (⟨.asKeyword, keyword⟩ :: name.token .word :: rest) =
        spelledSites rest := by
      rw [spelledSites_cons (fun _ => Token.noConfusion),
        spelledSites_cons (fun _ => Token.noConfusion)]
    rw [← tail]
    rfl
  · rw [List.cons_append, List.cons_append, List.cons_append, List.nil_append,
      spelledReferences_cons (fun _ => Token.noConfusion),
      spelledReferences_cons (fun _ => Token.noConfusion), spelledReferences_word stop]
    rfl

theorem Tell.reference (r : Derivation.Reference) :
    Tell r.tokens [] [⟨r.name.value, r.property.value, r.name.span⟩] := by
  refine ⟨before_cons Token.noConfusion _, fun rest => ?_, fun rest stop => ?_⟩
  · rw [Derivation.Reference.tokens, List.cons_append, List.cons_append, List.cons_append,
      List.nil_append, spelledSites_cons (fun _ => Token.noConfusion),
      spelledSites_cons (fun _ => Token.noConfusion),
      spelledSites_cons (fun _ => Token.noConfusion)]
    rfl
  · have tail : spelledReferences (⟨.dot, r.dot⟩ :: r.property.token .word :: rest) =
        spelledReferences rest := by
      rw [spelledReferences_cons (fun _ => Token.noConfusion), spelledReferences_word stop]
    rw [← tail]
    rfl

end Binding

namespace Derivation

open Binding (Tell isMark)

theorem mark_of_isSilent {t : Token} (silent : t.isSilent = true) : isMark t = true := by
  cases t <;> first | rfl | cases silent

theorem mark_of_isArithmetic {t : Token} (arithmetic : isArithmetic t = true) :
    isMark t = true := by
  cases t <;> first | rfl | cases arithmetic

/-- Arithmetic says nothing about variables. -/
theorem Sum.tells (d : Sum) : Tell d.tokens [] [] :=
  Tell.marks fun t member => mark_of_isArithmetic (d.arithmetic t member)

theorem tells_join {tokens : List (Located Token)} {trees : List Query} {kind : Query.Kind}
    (joins : Query.Joins kind trees)
    (told : Tell tokens (trees.flatMap Query.sites) (trees.flatMap Query.references)) :
    Tell tokens (Query.branch kind trees).sites (Query.branch kind trees).references := by
  obtain ⟨unbound, unasked⟩ := joins.kind_ne
  rwa [Query.sites_branch unbound, Query.references_branch unasked]

/-- Trees bind and refer to what the tokens tell that they are put together from. -/
theorem Assembles.tells {tokens : List (Located Token)} {trees : List Query} {sums : List Sum}
    (assembles : Assembles tokens trees sums) :
    Tell tokens (trees.flatMap Query.sites) (trees.flatMap Query.references) := by
  induction assembles with
  | nil => exact Tell.nil
  | append _ _ first second =>
    rw [List.flatMap_append, List.flatMap_append]
    exact first.append second
  | skip silent => exact Tell.mark (mark_of_isSilent silent)
  | binding relation keyword name => exact Tell.binding relation keyword name
  | referenceFirst left op right =>
    have comparison : Tell [op.token .comparison] [] [] := Tell.mark rfl
    exact (Tell.reference left).append (comparison.append right.tells)
  | valueFirst left op right =>
    have comparison : Tell [op.token .comparison] [] [] := Tell.mark rfl
    exact left.tells.append (comparison.append (Tell.reference right))
  | join joins _ inside =>
    rw [List.flatMap_singleton, List.flatMap_singleton]
    exact tells_join joins inside

end Derivation

namespace TokenStream

/-- The bindings in a stream, in order. -/
def sites (s : TokenStream) : List Site := Binding.spelledSites (significantTokens s.tokens)

/-- The references in a stream, in order. -/
def references (s : TokenStream) : List Reference :=
  Binding.spelledReferences (significantTokens s.tokens)

/-- The tree of a query binds and refers to what its tokens spell, and nothing else. -/
theorem spells_tree {sourceName : String} {s : TokenStream} {tree : Query}
    (parsed : parseQuery sourceName s = .ok tree) :
    tree.sites = s.sites ∧ tree.references = s.references := by
  obtain ⟨e, ended⟩ := Session.parseQuery_eq_ok_iff.mp parsed
  obtain ⟨d, _, spells, rfl⟩ := Grammar.exists_derivation ended
  have finish : Binding.Tell [⟨.endOfInput, s.finish⟩] [] [] := Binding.Tell.mark rfl
  have told := d.assembles.tells
  rw [List.flatMap_singleton, List.flatMap_singleton] at told
  have whole := told.append finish
  have sites := whole.sites []
  have references := whole.references [] fun _ absent => by cases absent
  simp only [List.append_nil] at sites references
  rw [TokenStream.sites, TokenStream.references, s.significant_eq, ← spells, sites, references]
  exact ⟨(List.append_nil _).symm, (List.append_nil _).symm⟩

end TokenStream

end EventQuery
