import EventQuery.Proofs.Grammar.Derivation

set_option autoImplicit false

namespace EventQuery

/-- Whether a token may stand before the end of the input: it is neither trivia nor that end. -/
def Token.isContent (t : Token) : Bool := t.isSignificant && !t.isEnd

namespace Derivation

theorem content_of_isJoint {t : Token} (joint : isJoint t = true) : t.isContent = true := by
  cases t <;> first | rfl | cases joint

theorem content_of_isArithmetic {t : Token} (arithmetic : isArithmetic t = true) :
    t.isContent = true := by
  cases t <;> first | rfl | cases arithmetic

theorem Reference.content (r : Reference) : ∀ t ∈ r.tokens, t.value.isContent = true := by
  simp only [Reference.tokens, List.forall_mem_cons]
  exact ⟨rfl, rfl, rfl, fun _ absent => by cases absent⟩

theorem Sum.content (d : Sum) : ∀ t ∈ d.tokens, t.value.isContent = true :=
  fun t member => content_of_isArithmetic (d.arithmetic t member)

mutual

theorem Formula.content : ∀ (d : Formula), ∀ t ∈ d.tokens, t.value.isContent = true
  | .negation keyword inside => by
    simp only [Formula.tokens, List.forall_mem_cons]
    exact ⟨rfl, inside.content⟩
  | .last only => by
    simp only [Formula.tokens]
    exact only.content
  | .more first op rest => by
    simp only [Formula.tokens, List.forall_mem_append, List.forall_mem_cons]
    exact ⟨first.content, content_of_isJoint (isJoint_of_logical? op.known), rest.content⟩

theorem Atom.content : ∀ (d : Atom), ∀ t ∈ d.tokens, t.value.isContent = true
  | .parens opening inside closing => by
    simp only [Atom.tokens]
    exact forall_mem_enclose Token.isContent inside.content rfl rfl opening closing
  | .referenceFirst left op right => by
    simp only [Atom.tokens, List.forall_mem_append, List.forall_mem_cons]
    exact ⟨left.content, rfl, right.content⟩
  | .valueFirst left _ op right => by
    simp only [Atom.tokens, List.forall_mem_append, List.forall_mem_cons]
    exact ⟨left.content, rfl, right.content⟩

end

theorem filterTokens_content (filter : Option (Span × Formula)) :
    ∀ t ∈ filterTokens filter, t.value.isContent = true := by
  cases filter with
  | none => exact fun _ absent => by cases absent
  | some filter => exact List.forall_mem_cons.mpr ⟨rfl, filter.2.content⟩

mutual

theorem Relations.content : ∀ (d : Relations), ∀ t ∈ d.tokens, t.value.isContent = true
  | .last only => by
    simp only [Relations.tokens]
    exact only.content
  | .more first op rest => by
    simp only [Relations.tokens, List.forall_mem_append, List.forall_mem_cons]
    exact ⟨first.content, content_of_isJoint (isJoint_of_relational? op.known), rest.content⟩

theorem Operand.content : ∀ (d : Operand), ∀ t ∈ d.tokens, t.value.isContent = true
  | .mk term plus filter => by
    simp only [Operand.tokens, List.forall_mem_append]
    exact ⟨⟨term.content, forall_mem_optionalToken Token.isContent rfl plus⟩,
      filterTokens_content filter⟩

theorem Term.content : ∀ (d : Term), ∀ t ∈ d.tokens, t.value.isContent = true
  | .parens opening inside closing => by
    simp only [Term.tokens]
    exact forall_mem_enclose Token.isContent inside.content rfl rfl opening closing
  | .binding relation keyword name => by
    simp only [Term.tokens, List.forall_mem_cons]
    exact ⟨rfl, rfl, rfl, fun _ absent => by cases absent⟩

end

end Derivation

end EventQuery
