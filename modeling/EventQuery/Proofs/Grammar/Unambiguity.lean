import EventQuery.Proofs.Grammar.Boundary

/- A row of tokens has at most one derivation. What follows a phrase must not go on from it, so
two derivations of the beginnings of one row end at the same token. -/

set_option autoImplicit false

namespace EventQuery.Derivation

/-- The row is empty or begins with a token that `ends` holds of. -/
def Before (ends : Token → Prop) (rest : List (Located Token)) : Prop :=
  ∀ t ∈ rest.head?, ends t.value

theorem before_cons {ends : Token → Prop} {t : Located Token} (here : ends t.value)
    (rest : List (Located Token)) : Before ends (t :: rest) := by
  intro u first
  cases first
  exact here

theorem Before.append {ends : Token → Prop} {front back : List (Located Token)}
    (stop : Before ends front) (stop' : Before ends back) : Before ends (front ++ back) := by
  cases front with
  | nil => exact stop'
  | cons t _ => exact stop

theorem Before.mono {ends later : Token → Prop} {rest : List (Located Token)}
    (stop : Before ends rest) (weaken : ∀ t, ends t → later t) : Before later rest :=
  fun t first => weaken _ (stop t first)

theorem Operator.eq_of_token {ω : Type} {table : Token → Option ω} {p q : Operator table}
    (same : p.token = q.token) : p = q := by
  obtain ⟨token, meaning, known⟩ := p
  obtain ⟨token', meaning', known'⟩ := q
  cases same
  cases known.symm.trans known'
  rfl

theorem Operator.cons_inj {ω : Type} {table : Token → Option ω} {p q : Operator table}
    {u v : List (Located Token)} (same : p.token :: u = q.token :: v) : p = q ∧ u = v := by
  obtain ⟨token, back⟩ := List.cons.inj same
  exact ⟨eq_of_token token, back⟩

/-- An operator does not end what it goes on from. -/
theorem Operator.not_before {ω : Type} {table : Token → Option ω} (op : Operator table)
    (rest : List (Located Token)) : ¬ Before (fun t => table t = none) (op.token :: rest) := by
  intro stop
  have none : table op.token.value = none := stop op.token rfl
  rw [op.known] at none
  cases none

theorem Number.eq_of_token {n m : Number} (same : n.lexeme.token .number = m.lexeme.token .number) :
    n = m := by
  obtain ⟨⟨lexeme, span⟩, value, reads⟩ := n
  obtain ⟨⟨lexeme', span'⟩, value', reads'⟩ := m
  cases same
  cases reads.symm.trans reads'
  rfl

theorem enclose_append {opening opening' closing closing' : Span}
    {inside inside' u v : List (Located Token)}
    (same : enclose opening inside closing ++ u = enclose opening' inside' closing' ++ v) :
    opening = opening' ∧
      inside ++ ⟨.rightParen, closing⟩ :: u = inside' ++ ⟨.rightParen, closing'⟩ :: v := by
  simp only [enclose, List.cons_append, List.append_assoc, List.nil_append] at same
  obtain ⟨token, later⟩ := List.cons.inj same
  exact ⟨congrArg Located.span token, later⟩

theorem optionalToken_append {token : Token} {place place' : Option Span}
    {front front' : List (Located Token)}
    (same : optionalToken token place ++ front = optionalToken token place' ++ front')
    (absent : Before (· ≠ token) front) (absent' : Before (· ≠ token) front') :
    place = place' ∧ front = front' := by
  cases place with
  | none =>
    cases place' with
    | none => exact ⟨rfl, same⟩
    | some span =>
      cases same
      exact absurd rfl (absent _ rfl)
  | some span =>
    cases place' with
    | none =>
      cases same
      exact absurd rfl (absent' _ rfl)
    | some span' =>
      cases same
      exact ⟨rfl, rfl⟩

theorem Primary.unsigned (p : Primary) (rest : List (Located Token)) :
    Before (· ≠ .minus) (p.tokens ++ rest) := by
  obtain ⟨t, later, spelled, begins⟩ := p.tokens_eq_cons
  rw [spelled]
  refine before_cons ?_ _
  rcases begins with opening | ⟨lexeme, number⟩
  · rw [opening]
    exact Token.noConfusion
  · rw [number]
    exact Token.noConfusion

theorem Product.unsigned (p : Product) (rest : List (Located Token)) :
    Before (· ≠ .minus) (p.tokens ++ rest) := by
  cases p with
  | last only => exact only.unsigned rest
  | more first op later =>
    rw [Product.tokens, List.append_assoc]
    exact first.unsigned _

mutual

theorem Primary.unique (p q : Primary) {u v : List (Located Token)}
    (same : p.tokens ++ u = q.tokens ++ v) : p = q ∧ u = v := by
  cases p with
  | number n =>
    cases q with
    | number m =>
      obtain ⟨token, rest⟩ := List.cons.inj same
      cases Number.eq_of_token token
      exact ⟨rfl, rest⟩
    | parens opening inside closing => cases (List.cons.inj same).1
  | parens opening inside closing =>
    cases q with
    | number n => cases (List.cons.inj same).1
    | parens opening' inside' closing' =>
      obtain ⟨rfl, later⟩ := enclose_append same
      obtain ⟨rfl, rest⟩ := Sum.unique inside inside' later (before_cons ⟨rfl, rfl⟩ _)
        (before_cons ⟨rfl, rfl⟩ _)
      cases rest
      exact ⟨rfl, rfl⟩

theorem Factors.unique (p q : Factors) {u v : List (Located Token)}
    (same : p.tokens ++ u = q.tokens ++ v) (stop : Before (fun t => multiplicative? t = none) u)
    (stop' : Before (fun t => multiplicative? t = none) v) : p = q ∧ u = v := by
  cases p with
  | last sign only =>
    cases q with
    | last sign' only' =>
      simp only [Factors.tokens, List.append_assoc] at same
      obtain ⟨rfl, later⟩ := optionalToken_append same (only.unsigned _) (only'.unsigned _)
      obtain ⟨rfl, rest⟩ := Primary.unique only only' later
      exact ⟨rfl, rest⟩
    | more sign' first op rest =>
      simp only [Factors.tokens, List.append_assoc, List.cons_append] at same
      obtain ⟨rfl, later⟩ := optionalToken_append same (only.unsigned _) (first.unsigned _)
      obtain ⟨rfl, rfl⟩ := Primary.unique only first later
      exact absurd stop (op.not_before _)
  | more sign first op rest =>
    cases q with
    | last sign' only =>
      simp only [Factors.tokens, List.append_assoc, List.cons_append] at same
      obtain ⟨rfl, later⟩ := optionalToken_append same (first.unsigned _) (only.unsigned _)
      obtain ⟨rfl, rfl⟩ := Primary.unique first only later
      exact absurd stop' (op.not_before _)
    | more sign' first' op' rest' =>
      simp only [Factors.tokens, List.append_assoc, List.cons_append] at same
      obtain ⟨rfl, later⟩ := optionalToken_append same (first.unsigned _) (first'.unsigned _)
      obtain ⟨rfl, tail⟩ := Primary.unique first first' later
      obtain ⟨rfl, back⟩ := Operator.cons_inj tail
      obtain ⟨rfl, ends⟩ := Factors.unique rest rest' back stop stop'
      exact ⟨rfl, ends⟩

theorem Product.unique (p q : Product) {u v : List (Located Token)}
    (same : p.tokens ++ u = q.tokens ++ v) (stop : Before (fun t => multiplicative? t = none) u)
    (stop' : Before (fun t => multiplicative? t = none) v) : p = q ∧ u = v := by
  cases p with
  | last only =>
    cases q with
    | last only' =>
      obtain ⟨rfl, rest⟩ := Primary.unique only only' same
      exact ⟨rfl, rest⟩
    | more first op rest =>
      simp only [Product.tokens, List.append_assoc, List.cons_append] at same
      obtain ⟨rfl, rfl⟩ := Primary.unique only first same
      exact absurd stop (op.not_before _)
  | more first op rest =>
    cases q with
    | last only =>
      simp only [Product.tokens, List.append_assoc, List.cons_append] at same
      obtain ⟨rfl, rfl⟩ := Primary.unique first only same
      exact absurd stop' (op.not_before _)
    | more first' op' rest' =>
      simp only [Product.tokens, List.append_assoc, List.cons_append] at same
      obtain ⟨rfl, tail⟩ := Primary.unique first first' same
      obtain ⟨rfl, back⟩ := Operator.cons_inj tail
      obtain ⟨rfl, ends⟩ := Factors.unique rest rest' back stop stop'
      exact ⟨rfl, ends⟩

theorem Sum.unique (p q : Sum) {u v : List (Located Token)}
    (same : p.tokens ++ u = q.tokens ++ v) (stop : Before EndsSum u) (stop' : Before EndsSum v) :
    p = q ∧ u = v := by
  have endsProduct (op : Operator additive?) (rest : List (Located Token)) :
      Before (fun t => multiplicative? t = none) (op.token :: rest) :=
    before_cons (multiplicative?_of_additive? op.known) rest
  cases p with
  | last sign only =>
    cases q with
    | last sign' only' =>
      simp only [Sum.tokens, List.append_assoc] at same
      obtain ⟨rfl, later⟩ := optionalToken_append same (only.unsigned _) (only'.unsigned _)
      obtain ⟨rfl, rest⟩ := Product.unique only only' later (stop.mono fun _ ends => ends.2)
        (stop'.mono fun _ ends => ends.2)
      exact ⟨rfl, rest⟩
    | more sign' first op rest =>
      simp only [Sum.tokens, List.append_assoc, List.cons_append] at same
      obtain ⟨rfl, later⟩ := optionalToken_append same (only.unsigned _) (first.unsigned _)
      obtain ⟨rfl, rfl⟩ := Product.unique only first later (stop.mono fun _ ends => ends.2)
        (endsProduct op _)
      exact absurd (stop.mono fun _ ends => ends.1) (op.not_before _)
  | more sign first op rest =>
    cases q with
    | last sign' only =>
      simp only [Sum.tokens, List.append_assoc, List.cons_append] at same
      obtain ⟨rfl, later⟩ := optionalToken_append same (first.unsigned _) (only.unsigned _)
      obtain ⟨rfl, rfl⟩ := Product.unique first only later (endsProduct op _)
        (stop'.mono fun _ ends => ends.2)
      exact absurd (stop'.mono fun _ ends => ends.1) (op.not_before _)
    | more sign' first' op' rest' =>
      simp only [Sum.tokens, List.append_assoc, List.cons_append] at same
      obtain ⟨rfl, later⟩ := optionalToken_append same (first.unsigned _) (first'.unsigned _)
      obtain ⟨rfl, tail⟩ := Product.unique first first' later (endsProduct op _)
        (endsProduct op' _)
      obtain ⟨rfl, back⟩ := Operator.cons_inj tail
      obtain ⟨rfl, ends⟩ := Sum.unique rest rest' back stop stop'
      exact ⟨rfl, ends⟩

end

theorem Reference.unique {r s : Reference} {u v : List (Located Token)}
    (same : r.tokens ++ u = s.tokens ++ v) : r = s ∧ u = v := by
  obtain ⟨⟨name, nameSpan⟩, dot, ⟨property, propertySpan⟩⟩ := r
  obtain ⟨⟨name', nameSpan'⟩, dot', ⟨property', propertySpan'⟩⟩ := s
  cases same
  exact ⟨rfl, rfl⟩

/-- The tokens that an atom of each form begins with. -/
def Atom.Opens : Atom → Token → Prop
  | .parens _ _ _, t => t = .leftParen
  | .referenceFirst _ _ _, t => ∃ name, t = .word name
  | .valueFirst _ _ _ _, t => t = .minus ∨ ∃ lexeme, t = .number lexeme

theorem Atom.tokens_eq_cons (p : Atom) : ∃ t rest, p.tokens = t :: rest ∧ p.Opens t.value := by
  cases p with
  | parens opening inside closing => exact ⟨_, _, rfl, rfl⟩
  | referenceFirst left op right => exact ⟨_, _, rfl, _, rfl⟩
  | valueFirst left bare op right =>
    obtain ⟨t, later, spelled, begins⟩ := left.tokens_eq_cons
    refine ⟨t, _, by rw [Atom.tokens, spelled]; rfl, ?_⟩
    rcases begins with minus | opening | number
    · exact .inl minus
    · exact absurd opening (bare t (by rw [spelled]; rfl))
    · exact .inr number

theorem Atom.opens_both {p q : Atom} {u v : List (Located Token)}
    (same : p.tokens ++ u = q.tokens ++ v) : ∃ t, p.Opens t ∧ q.Opens t := by
  obtain ⟨t, rest, spelled, opens⟩ := p.tokens_eq_cons
  obtain ⟨t', rest', spelled', opens'⟩ := q.tokens_eq_cons
  rw [spelled, spelled'] at same
  obtain rfl : t = t' := (List.cons.inj same).1
  exact ⟨t.value, opens, opens'⟩

theorem Atom.not_negation {p : Atom} {u v : List (Located Token)} {keyword : Span}
    (same : p.tokens ++ u = ⟨.notKeyword, keyword⟩ :: v) : False := by
  obtain ⟨t, rest, spelled, opens⟩ := p.tokens_eq_cons
  rw [spelled] at same
  obtain rfl : t = ⟨.notKeyword, keyword⟩ := (List.cons.inj same).1
  cases p with
  | parens opening inside closing => cases opens
  | referenceFirst left op right => cases opens.choose_spec
  | valueFirst left bare op right =>
    rcases opens with impossible | ⟨lexeme, impossible⟩ <;> cases impossible

theorem endsSum_comparison (op : Located Comparison) (rest : List (Located Token)) :
    Before EndsSum (op.token .comparison :: rest) := before_cons ⟨rfl, rfl⟩ rest

mutual

theorem Atom.unique (p q : Atom) {u v : List (Located Token)}
    (same : p.tokens ++ u = q.tokens ++ v) (stop : Before EndsSum u) (stop' : Before EndsSum v) :
    p = q ∧ u = v := by
  obtain ⟨t, opens, opens'⟩ := Atom.opens_both same
  cases p with
  | parens opening inside closing =>
    cases opens
    cases q with
    | parens opening' inside' closing' =>
      obtain ⟨rfl, later⟩ := enclose_append same
      obtain ⟨rfl, rest⟩ := Formula.unique inside inside' later
        (before_cons ⟨⟨rfl, rfl⟩, rfl⟩ _) (before_cons ⟨⟨rfl, rfl⟩, rfl⟩ _)
      cases rest
      exact ⟨rfl, rfl⟩
    | referenceFirst left op right => cases opens'.choose_spec
    | valueFirst left bare op right =>
      rcases opens' with impossible | ⟨lexeme, impossible⟩ <;> cases impossible
  | referenceFirst left op right =>
    obtain ⟨name, rfl⟩ := opens
    cases q with
    | parens opening inside closing => cases opens'
    | referenceFirst left' op' right' =>
      simp only [Atom.tokens, List.append_assoc, List.cons_append] at same
      obtain ⟨rfl, tail⟩ := Reference.unique same
      obtain ⟨token, back⟩ := List.cons.inj tail
      obtain ⟨rfl, rest⟩ := Sum.unique right right' back stop stop'
      cases op
      cases op'
      cases token
      exact ⟨rfl, rest⟩
    | valueFirst left' bare op' right' =>
      rcases opens' with impossible | ⟨lexeme, impossible⟩ <;> cases impossible
  | valueFirst left bare op right =>
    cases q with
    | parens opening inside closing =>
      cases opens'
      rcases opens with impossible | ⟨lexeme, impossible⟩ <;> cases impossible
    | referenceFirst left' op' right' =>
      obtain ⟨name, rfl⟩ := opens'
      rcases opens with impossible | ⟨lexeme, impossible⟩ <;> cases impossible
    | valueFirst left' bare' op' right' =>
      simp only [Atom.tokens, List.append_assoc, List.cons_append] at same
      obtain ⟨rfl, tail⟩ := Sum.unique left left' same (endsSum_comparison op _)
        (endsSum_comparison op' _)
      obtain ⟨token, back⟩ := List.cons.inj tail
      obtain ⟨rfl, rest⟩ := Reference.unique back
      cases op
      cases op'
      cases token
      exact ⟨rfl, rest⟩

theorem Formula.unique (p q : Formula) {u v : List (Located Token)}
    (same : p.tokens ++ u = q.tokens ++ v) (stop : Before EndsFormula u)
    (stop' : Before EndsFormula v) : p = q ∧ u = v := by
  have endsAtom (op : Operator logical?) (rest : List (Located Token)) :
      Before EndsSum (op.token :: rest) := before_cons (endsSum_of_logical? op.known) rest
  have endsLast {w : List (Located Token)} (ends : Before EndsFormula w) : Before EndsSum w :=
    ends.mono fun _ both => both.1
  have noMore {op : Operator logical?} {w : List (Located Token)}
      (ends : Before EndsFormula (op.token :: w)) : False :=
    op.not_before w (ends.mono fun _ both => both.2)
  cases p with
  | negation keyword inside =>
    cases q with
    | negation keyword' inside' =>
      obtain ⟨token, later⟩ := List.cons.inj same
      obtain ⟨rfl, rest⟩ := Formula.unique inside inside' later stop stop'
      cases token
      exact ⟨rfl, rest⟩
    | last only => exact (Atom.not_negation same.symm).elim
    | more first op rest =>
      rw [Formula.tokens, Formula.tokens, List.append_assoc] at same
      exact (Atom.not_negation same.symm).elim
  | last only =>
    cases q with
    | negation keyword inside => exact (Atom.not_negation same).elim
    | last only' =>
      obtain ⟨rfl, rest⟩ := Atom.unique only only' same (endsLast stop) (endsLast stop')
      exact ⟨rfl, rest⟩
    | more first op rest =>
      simp only [Formula.tokens, List.append_assoc, List.cons_append] at same
      obtain ⟨rfl, rfl⟩ := Atom.unique only first same (endsLast stop) (endsAtom op _)
      exact (noMore stop).elim
  | more first op rest =>
    simp only [Formula.tokens, List.append_assoc, List.cons_append] at same
    cases q with
    | negation keyword inside => exact (Atom.not_negation same).elim
    | last only =>
      obtain ⟨rfl, rfl⟩ := Atom.unique first only same (endsAtom op _) (endsLast stop')
      exact (noMore stop').elim
    | more first' op' rest' =>
      simp only [Formula.tokens, List.append_assoc, List.cons_append] at same
      obtain ⟨rfl, tail⟩ := Atom.unique first first' same (endsAtom op _) (endsAtom op' _)
      obtain ⟨rfl, back⟩ := Operator.cons_inj tail
      obtain ⟨rfl, ends⟩ := Formula.unique rest rest' back stop stop'
      exact ⟨rfl, ends⟩

end

theorem filterTokens_append {filter filter' : Option (Span × Formula)}
    {u v : List (Located Token)} (same : filterTokens filter ++ u = filterTokens filter' ++ v)
    (stop : Before EndsOperand u) (stop' : Before EndsOperand v) : filter = filter' ∧ u = v := by
  match filter, filter' with
  | none, none => exact ⟨rfl, same⟩
  | none, some (keyword, formula) =>
    cases same
    exact absurd rfl (stop _ rfl).2
  | some (keyword, formula), none =>
    cases same
    exact absurd rfl (stop' _ rfl).2
  | some (keyword, formula), some (keyword', formula') =>
    obtain ⟨token, later⟩ := List.cons.inj same
    obtain ⟨rfl, rest⟩ := Formula.unique formula formula' later (stop.mono fun _ ends => ends.1)
      (stop'.mono fun _ ends => ends.1)
    cases token
    exact ⟨rfl, rest⟩

theorem filterTokens_unrepeated (filter : Option (Span × Formula)) {u : List (Located Token)}
    (stop : Before EndsOperand u) : Before (· ≠ .plus) (filterTokens filter ++ u) := by
  match filter with
  | none =>
    refine stop.mono ?_
    intro t ends plus
    rw [plus] at ends
    cases ends.1.1.1
  | some (keyword, formula) => exact before_cons Token.noConfusion _

mutual

theorem Term.unique (p q : Term) {u v : List (Located Token)}
    (same : p.tokens ++ u = q.tokens ++ v) : p = q ∧ u = v := by
  cases p with
  | parens opening inside closing =>
    cases q with
    | parens opening' inside' closing' =>
      obtain ⟨rfl, later⟩ := enclose_append same
      obtain ⟨rfl, rest⟩ := Relations.unique inside inside' later
        (before_cons ⟨⟨⟨⟨rfl, rfl⟩, rfl⟩, Token.noConfusion⟩, rfl⟩ _)
        (before_cons ⟨⟨⟨⟨rfl, rfl⟩, rfl⟩, Token.noConfusion⟩, rfl⟩ _)
      cases rest
      exact ⟨rfl, rfl⟩
    | binding relation keyword name => cases (List.cons.inj same).1
  | binding relation keyword name =>
    cases q with
    | parens opening inside closing => cases (List.cons.inj same).1
    | binding relation' keyword' name' =>
      obtain ⟨relation, relationSpan⟩ := relation
      obtain ⟨name, nameSpan⟩ := name
      obtain ⟨relation', relationSpan'⟩ := relation'
      obtain ⟨name', nameSpan'⟩ := name'
      cases same
      exact ⟨rfl, rfl⟩

theorem Operand.unique (p q : Operand) {u v : List (Located Token)}
    (same : p.tokens ++ u = q.tokens ++ v) (stop : Before EndsOperand u)
    (stop' : Before EndsOperand v) : p = q ∧ u = v := by
  obtain ⟨term, plus, filter⟩ := p
  obtain ⟨term', plus', filter'⟩ := q
  simp only [Operand.tokens, List.append_assoc] at same
  obtain ⟨rfl, later⟩ := Term.unique term term' same
  obtain ⟨rfl, back⟩ := optionalToken_append later (filterTokens_unrepeated filter stop)
    (filterTokens_unrepeated filter' stop')
  obtain ⟨rfl, rest⟩ := filterTokens_append back stop stop'
  exact ⟨rfl, rest⟩

theorem Relations.unique (p q : Relations) {u v : List (Located Token)}
    (same : p.tokens ++ u = q.tokens ++ v) (stop : Before EndsQuery u)
    (stop' : Before EndsQuery v) : p = q ∧ u = v := by
  have endsFirst (op : Operator relational?) (rest : List (Located Token)) :
      Before EndsOperand (op.token :: rest) := before_cons (endsOperand_of_relational? op.known) rest
  have endsLast {w : List (Located Token)} (ends : Before EndsQuery w) : Before EndsOperand w :=
    ends.mono fun _ both => both.1
  have noMore {op : Operator relational?} {w : List (Located Token)}
      (ends : Before EndsQuery (op.token :: w)) : False :=
    op.not_before w (ends.mono fun _ both => both.2)
  cases p with
  | last only =>
    cases q with
    | last only' =>
      obtain ⟨rfl, rest⟩ := Operand.unique only only' same (endsLast stop) (endsLast stop')
      exact ⟨rfl, rest⟩
    | more first op rest =>
      simp only [Relations.tokens, List.append_assoc, List.cons_append] at same
      obtain ⟨rfl, rfl⟩ := Operand.unique only first same (endsLast stop) (endsFirst op _)
      exact (noMore stop).elim
  | more first op rest =>
    simp only [Relations.tokens, List.append_assoc, List.cons_append] at same
    cases q with
    | last only =>
      obtain ⟨rfl, rfl⟩ := Operand.unique first only same (endsFirst op _) (endsLast stop')
      exact (noMore stop').elim
    | more first' op' rest' =>
      simp only [Relations.tokens, List.append_assoc, List.cons_append] at same
      obtain ⟨rfl, tail⟩ := Operand.unique first first' same (endsFirst op _) (endsFirst op' _)
      obtain ⟨rfl, back⟩ := Operator.cons_inj tail
      obtain ⟨rfl, ends⟩ := Relations.unique rest rest' back stop stop'
      exact ⟨rfl, ends⟩

end

/-- Two derivations of one row of tokens are the same. -/
theorem Relations.eq_of_tokens {p q : Relations} (same : p.tokens = q.tokens) : p = q := by
  have empty : Before EndsQuery [] := fun _ absent => by cases absent
  have whole : p.tokens ++ [] = q.tokens ++ [] := by rw [same]
  exact (Relations.unique p q whole empty empty).1

end EventQuery.Derivation
