import EventQuery.Grammar.Relation
import EventQuery.Proofs.Grammar.Boundary
import EventQuery.Proofs.Grammar.Reading

set_option autoImplicit false

namespace EventQuery

namespace Parser

variable {α ω : Type}

/-- Reads `head`, and behind an operator the rest of the chain. -/
def chain (operator : Token → Option ω) (combine : ω → α → α → α) (budget : Nat)
    (head : Parser α) (rest : Nat → Parser α) : Parser α := do
  let first ← head
  match operator (← peek) with
  | none => return first
  | some op =>
    nested budget fun k _ => do
      let _ ← advance
      let last ← rest k
      return combine op first last

/-- Reads what stands in parentheses, the opening one being next. -/
def enclosed (budget : Nat) (inside : Nat → Parser α) : Parser α :=
  nested budget fun k _ => do
    let _ ← advance
    let x ← inside k
    let _ ← expectToken .rightParen .closing
    return x

theorem climbRight_eq (operator : Token → Option ω) (combine : ω → α → α → α) (budget : Nat)
    (operand : Nat → Parser α) (first : α) :
    climbRight operator combine budget (fun k _ => operand k) first = (do
      match operator (← peek) with
      | none => return first
      | some op =>
        nested budget fun k _ => do
          let _ ← advance
          let next ← operand k
          let last ← climbRight operator combine k (fun k _ => operand k) next
          return combine op first last) := by
  cases budget <;> rfl

/-- A chain whose rest is read like the chain itself is a climb to the right. -/
theorem chain_eq_climbRight (operator : Token → Option ω) (combine : ω → α → α → α) (budget : Nat)
    (head : Parser α) (operand : Nat → Parser α) :
    (head >>= climbRight operator combine budget (fun k _ => operand k)) =
      chain operator combine budget head fun k =>
        operand k >>= climbRight operator combine k (fun k _ => operand k) := by
  simp only [chain, bind_assoc]
  congr 1
  funext first
  rw [climbRight_eq]

variable {c : Cursor} {phrase whole : List (Located Token) → α → Prop} {before after : Token → Prop}

/-- A chain is read when its head and, one level deeper, its rest are. -/
theorem Reads.chain {operator : Token → Option ω} {combine : ω → α → α → α} {budget : Nat}
    {head : Parser α} {rest : Nat → Parser α} {later : Nat → List (Located Token) → α → Prop}
    (inside : operator .endOfInput = none) (first : head.Reads c phrase before)
    (others : ∀ k d, k < budget → (rest k).Reads d (later k) after)
    (last : ∀ tokens a, phrase tokens a → whole tokens a)
    (more : ∀ k front back a b op (t : Located Token), k < budget → phrase front a →
      operator t.value = some op → later k back b → whole (front ++ t :: back) (combine op a b))
    (stop : ∀ t, before t → operator t = none → after t) :
    (Parser.chain operator combine budget head rest).Reads c whole after := by
  refine first.bind ?_ fun front a holds => ⟨[], a, by simpa using last front a holds⟩
  intro front a d _ holds stopped
  refine Reads.peek ?_
  split
  · rename_i ended
    exact Reads.pure (by simpa using last front a holds) (stop _ stopped ended)
  · rename_i op found
    cases budget with
    | zero => exact Reads.fail [] (by simpa using last front a holds)
    | succ k =>
      have below : k < k + 1 := Nat.lt_succ_self k
      have present : d.current.value ≠ .endOfInput := by
        intro ended
        rw [ended, inside] at found
        cases found
      refine Reads.advance present fun e _ => (others k e below).bind ?_ ?_
      · intro back b _ _ held stopped
        refine Reads.pure ?_ stopped
        simpa using more k front back a b op d.current below holds found held
      · intro back b held
        exact ⟨[], _, by simpa using more k front back a b op d.current below holds found held⟩

/-- A phrase in parentheses is read when the phrase is, one level deeper. -/
theorem Reads.enclosed {budget : Nat} {inner : Nat → Parser α}
    {held : Nat → List (Located Token) → α → Prop} (opening : c.current.value = .leftParen)
    (reads : ∀ k d, k < budget → (inner k).Reads d (held k) before)
    (wrap : ∀ k tokens a closing, k < budget → held k tokens a →
      whole (Derivation.enclose c.current.span tokens closing) a)
    (other : ∃ tokens a, whole tokens a) :
    (Parser.enclosed budget inner).Reads c whole fun _ => True := by
  cases budget with
  | zero =>
    obtain ⟨tokens, a, holds⟩ := other
    exact Reads.fail tokens holds
  | succ k =>
    have below : k < k + 1 := Nat.lt_succ_self k
    have start : c.current = ⟨.leftParen, c.current.span⟩ := by rw [← opening]
    refine Reads.advance (by simp [opening]) fun d _ => (reads k d below).bind ?_ ?_
    · intro tokens a e _ holds _
      refine Reads.expectToken (by simp) ⟨[⟨.rightParen, .origin⟩], a, ?_⟩ ?_
      · rw [start]
        exact wrap k tokens a .origin below holds
      · intro closing f _
        refine Reads.pure ?_ trivial
        rw [start]
        exact wrap k tokens a closing below holds
    · intro tokens a holds
      refine ⟨[⟨.rightParen, .origin⟩], a, ?_⟩
      rw [start]
      exact wrap k tokens a .origin below holds

end Parser

namespace Derivation

theorem relationOperator?_eq : relationOperator? = relational? := by
  funext t
  cases t with
  | comparison op => cases op <;> decide
  | _ => rfl

theorem filterConnective?_eq : filterConnective? = logical? := by
  funext t
  cases t with
  | connective text =>
    by_cases disjunctive : text = "or"
    · subst disjunctive
      rfl
    · have unlisted : (text == "or") = false := by simpa using disjunctive
      simp [filterConnective?, OperatorTable.find?, filterConnectives, List.lookup_cons, logical?,
        disjunctive, unlisted]
  | _ => rfl

end Derivation

namespace Arithmetic

open EventQuery.Parser EventQuery.Derivation

/-- The level of sums is the loosest. -/
def sumLevel : Level := ⟨⟨[("+", .add), ("-", .subtract)], none, .right⟩, true, true⟩

def productLevel : Level := ⟨⟨[("*", .multiply), ("/", .divide)], none, .right⟩, false, true⟩

theorem levels_eq : levels = [sumLevel, productLevel] := rfl

theorem sumLevel_operator?_eq : sumLevel.operator? = additive? := by
  funext t
  cases t with
  | comparison op => cases op <;> decide
  | _ => rfl

theorem productLevel_operator?_eq : productLevel.operator? = multiplicative? := by
  funext t
  cases t with
  | comparison op => cases op <;> decide
  | _ => rfl

def sum (budget : Nat) : Parser Float := evaluate levels budget

def product (budget : Nat) : Parser Float := expression levels budget [productLevel]

def primary (budget : Nat) : Parser Float := expression levels budget []

/-- What follows the first operator of a product. -/
def factors (budget : Nat) : Parser Float :=
  signed true (primary budget) >>=
    climbRight multiplicative? Operation.apply budget fun k _ => signed true (primary k)

theorem sum_eq (budget : Nat) :
    sum budget = chain additive? Operation.apply budget (signed true (product budget)) sum := by
  have unfolded (k : Nat) : sum k = (signed true (product k) >>=
      climbRight additive? Operation.apply k fun k _ => signed true (product k)) := by
    rw [sum, evaluate, levels_eq, expression, ← sumLevel_operator?_eq]
    rfl
  rw [unfolded, chain_eq_climbRight]
  congr 1
  funext k
  exact (unfolded k).symm

theorem product_eq (budget : Nat) :
    product budget = chain multiplicative? Operation.apply budget (primary budget) factors := by
  have unfolded : product budget = (primary budget >>=
      climbRight multiplicative? Operation.apply budget fun k _ => signed true (primary k)) := by
    rw [product, expression, ← productLevel_operator?_eq]
    rfl
  rw [unfolded, chain_eq_climbRight]
  rfl

theorem factors_eq (budget : Nat) :
    factors budget =
      chain multiplicative? Operation.apply budget (signed true (primary budget)) factors := by
  rw [factors, chain_eq_climbRight]
  rfl

theorem primary_eq (budget : Nat) :
    primary budget = (do
      match ← peek with
      | .leftParen => enclosed budget sum
      | .number lexeme => number lexeme
      | _ => fail .operand) := by
  rw [primary, expression]
  rfl

end Arithmetic

namespace Grammar

open EventQuery.Parser EventQuery.Derivation

theorem formula_eq (budget : Nat) :
    formula budget = chain logical? combine budget (condition budget) formula := by
  have unfolded (k : Nat) : formula k = (condition k >>=
      climbRight logical? combine k fun k _ => condition k) := by
    rw [formula, filterConnective?_eq]
    rfl
  rw [unfolded, chain_eq_climbRight]
  congr 1
  funext k
  exact (unfolded k).symm

theorem condition_eq (budget : Nat) :
    condition budget = (do
      match ← peek with
      | .notKeyword =>
        nested budget fun k _ => do
          let _ ← advance
          return .branch .negation [← formula k]
      | .leftParen => enclosed budget formula
      | .word _ => referenceFirst budget
      | _ => valueFirst budget) := by
  rw [condition]
  rfl

theorem query_eq (budget : Nat) :
    query budget = chain relational? combine budget (operand budget) query := by
  have unfolded (k : Nat) : query k = (operand k >>=
      climbRight relational? combine k fun k _ => operand k) := by
    rw [query, relationOperator?_eq]
    rfl
  rw [unfolded, chain_eq_climbRight]
  congr 1
  funext k
  exact (unfolded k).symm

theorem term_eq (budget : Nat) :
    term budget = (do
      match ← peek with
      | .leftParen => enclosed budget query
      | .relation _ => binding
      | _ => fail .relation) := by
  rw [term]
  rfl

end Grammar

end EventQuery
