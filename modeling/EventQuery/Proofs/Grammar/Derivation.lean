import EventQuery.Grammar.Relation
import EventQuery.Proofs.Grammar.Reading

/- The grammar of queries, apart from its parsers. A derivation is a tree of productions over
located tokens. It spells a row of tokens, needs a number of nested levels, and stands for a
number or for a query tree. -/

set_option autoImplicit false

namespace EventQuery

namespace Derivation

def additive? : Token → Option Arithmetic.Operation
  | .plus => some .add
  | .minus => some .subtract
  | _ => none

def multiplicative? : Token → Option Arithmetic.Operation
  | .times => some .multiply
  | .divide => some .divide
  | _ => none

def relational? : Token → Option Query.Kind
  | .colon => some .sequence
  | .pipe => some .alternative
  | _ => none

def logical? : Token → Option Query.Kind
  | .connective text => some (if text = "or" then .disjunction else .conjunction)
  | _ => none

/-- The tokens that stand between trees. -/
def isJoint : Token → Bool
  | .colon | .pipe | .connective _ => true
  | _ => false

/-- The tokens that arithmetic is made of. -/
def isArithmetic : Token → Bool
  | .plus | .minus | .times | .divide | .number _ | .leftParen | .rightParen => true
  | _ => false

theorem isJoint_of_relational? {t : Token} {kind : Query.Kind}
    (known : relational? t = some kind) : isJoint t = true := by
  cases t <;> first | rfl | cases known

theorem isJoint_of_logical? {t : Token} {kind : Query.Kind} (known : logical? t = some kind) :
    isJoint t = true := by
  cases t <;> first | rfl | cases known

theorem isArithmetic_of_additive? {t : Token} {op : Arithmetic.Operation}
    (known : additive? t = some op) : isArithmetic t = true := by
  cases t <;> first | rfl | cases known

theorem isArithmetic_of_multiplicative? {t : Token} {op : Arithmetic.Operation}
    (known : multiplicative? t = some op) : isArithmetic t = true := by
  cases t <;> first | rfl | cases known

theorem kind_of_relational? {t : Token} {kind : Query.Kind} (known : relational? t = some kind) :
    kind = .sequence ∨ kind = .alternative := by
  cases t with
  | colon =>
    cases known
    exact .inl rfl
  | pipe =>
    cases known
    exact .inr rfl
  | _ => cases known

theorem kind_of_logical? {t : Token} {kind : Query.Kind} (known : logical? t = some kind) :
    kind = .conjunction ∨ kind = .disjunction := by
  cases t with
  | connective text =>
    rw [logical?, Option.some.injEq] at known
    rw [← known]
    split
    · exact .inr rfl
    · exact .inl rfl
  | _ => cases known

/-- A token that a table of operators knows, with what it stands for. -/
structure Operator {ω : Type} (table : Token → Option ω) where
  token : Located Token
  meaning : ω
  known : table token.value = some meaning

/-- A numeral whose text writes a number. -/
structure Number where
  lexeme : Located String
  value : Float
  reads : Decimal.readFloat? lexeme.value.toList = some value

/-- A variable, a dot, and a property. -/
structure Reference where
  name : Located String
  dot : Span
  property : Located String

mutual

/-- `sum ::= ['-'] product | ['-'] product ('+' | '-') sum` -/
inductive Sum where
  | last (sign : Option Span) (only : Product)
  | more (sign : Option Span) (first : Product) (op : Operator additive?) (rest : Sum)

/-- `product ::= primary | primary ('*' | '/') factors` -/
inductive Product where
  | last (only : Primary)
  | more (first : Primary) (op : Operator multiplicative?) (rest : Factors)

/-- `factors ::= ['-'] primary | ['-'] primary ('*' | '/') factors` -/
inductive Factors where
  | last (sign : Option Span) (only : Primary)
  | more (sign : Option Span) (first : Primary) (op : Operator multiplicative?) (rest : Factors)

/-- `primary ::= NUMBER | '(' sum ')'` -/
inductive Primary where
  | number (numeral : Number)
  | parens (opening : Span) (inside : Sum) (closing : Span)

end

/-- A token that may be left out. -/
def optionalToken (token : Token) (place : Option Span) : List (Located Token) :=
  (place.map (⟨token, ·⟩)).toList

/-- A row of tokens in parentheses. -/
def enclose (opening : Span) (inside : List (Located Token)) (closing : Span) :
    List (Located Token) :=
  ⟨.leftParen, opening⟩ :: (inside ++ [⟨.rightParen, closing⟩])

def Reference.tokens (r : Reference) : List (Located Token) :=
  [r.name.token .word, ⟨.dot, r.dot⟩, r.property.token .word]

mutual

def Sum.tokens : Sum → List (Located Token)
  | .last sign only => optionalToken .minus sign ++ only.tokens
  | .more sign first op rest => optionalToken .minus sign ++ first.tokens ++ op.token :: rest.tokens

def Product.tokens : Product → List (Located Token)
  | .last only => only.tokens
  | .more first op rest => first.tokens ++ op.token :: rest.tokens

def Factors.tokens : Factors → List (Located Token)
  | .last sign only => optionalToken .minus sign ++ only.tokens
  | .more sign first op rest => optionalToken .minus sign ++ first.tokens ++ op.token :: rest.tokens

def Primary.tokens : Primary → List (Located Token)
  | .number numeral => [numeral.lexeme.token .number]
  | .parens opening inside closing => enclose opening inside.tokens closing

end

theorem forall_mem_optionalToken (holds : Token → Bool) {token : Token}
    (here : holds token = true) (place : Option Span) :
    ∀ t ∈ optionalToken token place, holds t.value = true := by
  cases place with
  | none => exact fun _ absent => by cases absent
  | some span => exact List.forall_mem_singleton.mpr here

theorem forall_mem_enclose (holds : Token → Bool) {inside : List (Located Token)}
    (held : ∀ t ∈ inside, holds t.value = true) (opens : holds .leftParen = true)
    (closes : holds .rightParen = true) (opening closing : Span) :
    ∀ t ∈ enclose opening inside closing, holds t.value = true := by
  simp only [enclose, List.forall_mem_cons, List.forall_mem_append]
  exact ⟨opens, held, closes, fun _ absent => by cases absent⟩

mutual

theorem Sum.arithmetic : ∀ d : Sum, ∀ t ∈ d.tokens, isArithmetic t.value = true
  | .last sign only => by
    simp only [Sum.tokens, List.forall_mem_append]
    exact ⟨forall_mem_optionalToken isArithmetic rfl sign, only.arithmetic⟩
  | .more sign first op rest => by
    simp only [Sum.tokens, List.forall_mem_append, List.forall_mem_cons]
    exact ⟨⟨forall_mem_optionalToken isArithmetic rfl sign, first.arithmetic⟩,
      isArithmetic_of_additive? op.known, rest.arithmetic⟩

theorem Product.arithmetic : ∀ d : Product, ∀ t ∈ d.tokens, isArithmetic t.value = true
  | .last only => by
    simp only [Product.tokens]
    exact only.arithmetic
  | .more first op rest => by
    simp only [Product.tokens, List.forall_mem_append, List.forall_mem_cons]
    exact ⟨first.arithmetic, isArithmetic_of_multiplicative? op.known, rest.arithmetic⟩

theorem Factors.arithmetic : ∀ d : Factors, ∀ t ∈ d.tokens, isArithmetic t.value = true
  | .last sign only => by
    simp only [Factors.tokens, List.forall_mem_append]
    exact ⟨forall_mem_optionalToken isArithmetic rfl sign, only.arithmetic⟩
  | .more sign first op rest => by
    simp only [Factors.tokens, List.forall_mem_append, List.forall_mem_cons]
    exact ⟨⟨forall_mem_optionalToken isArithmetic rfl sign, first.arithmetic⟩,
      isArithmetic_of_multiplicative? op.known, rest.arithmetic⟩

theorem Primary.arithmetic : ∀ d : Primary, ∀ t ∈ d.tokens, isArithmetic t.value = true
  | .number numeral => by
    simp only [Primary.tokens, List.forall_mem_singleton]
    rfl
  | .parens opening inside closing => by
    simp only [Primary.tokens]
    exact forall_mem_enclose isArithmetic inside.arithmetic rfl rfl opening closing

end

/-- An opening parenthesis at its front would make a sum a parenthesized formula. -/
def Sum.Bare (s : Sum) : Prop := ∀ t ∈ s.tokens.head?, t.value ≠ .leftParen

mutual

/-- `formula ::= 'not' formula | atom | atom CONNECTIVE formula` -/
inductive Formula where
  | negation (keyword : Span) (inside : Formula)
  | last (only : Atom)
  | more (first : Atom) (op : Operator logical?) (rest : Formula)

/-- `atom ::= '(' formula ')' | reference COMPARISON sum | sum COMPARISON reference`, where the sum
of the last form is bare. -/
inductive Atom where
  | parens (opening : Span) (inside : Formula) (closing : Span)
  | referenceFirst (left : Reference) (op : Located Comparison) (right : Sum)
  | valueFirst (left : Sum) (bare : left.Bare) (op : Located Comparison) (right : Reference)

end

mutual

def Formula.tokens : Formula → List (Located Token)
  | .negation keyword inside => ⟨.notKeyword, keyword⟩ :: inside.tokens
  | .last only => only.tokens
  | .more first op rest => first.tokens ++ op.token :: rest.tokens

def Atom.tokens : Atom → List (Located Token)
  | .parens opening inside closing => enclose opening inside.tokens closing
  | .referenceFirst left op right => left.tokens ++ op.token .comparison :: right.tokens
  | .valueFirst left _ op right => left.tokens ++ op.token .comparison :: right.tokens

end

mutual

/-- `relations ::= operand | operand (':' | '|') relations` -/
inductive Relations where
  | last (only : Operand)
  | more (first : Operand) (op : Operator relational?) (rest : Relations)

/-- `operand ::= term ['+'] ['filter' formula]` -/
inductive Operand where
  | mk (term : Term) (plus : Option Span) (filter : Option (Span × Formula))

/-- `term ::= '(' relations ')' | RELATION 'as' WORD` -/
inductive Term where
  | parens (opening : Span) (inside : Relations) (closing : Span)
  | binding (relation : Located String) (keyword : Span) (name : Located String)

end

def filterTokens : Option (Span × Formula) → List (Located Token)
  | none => []
  | some (keyword, formula) => ⟨.filterKeyword, keyword⟩ :: formula.tokens

mutual

def Relations.tokens : Relations → List (Located Token)
  | .last only => only.tokens
  | .more first op rest => first.tokens ++ op.token :: rest.tokens

def Operand.tokens : Operand → List (Located Token)
  | .mk term plus filter => term.tokens ++ optionalToken .plus plus ++ filterTokens filter

def Term.tokens : Term → List (Located Token)
  | .parens opening inside closing => enclose opening inside.tokens closing
  | .binding relation keyword name =>
    [relation.token .relation, ⟨.asKeyword, keyword⟩, name.token .word]

end

mutual

def Sum.need : Sum → Nat
  | .last _ only => only.need
  | .more _ first _ rest => max first.need (1 + rest.need)

def Product.need : Product → Nat
  | .last only => only.need
  | .more first _ rest => max first.need (1 + rest.need)

def Factors.need : Factors → Nat
  | .last _ only => only.need
  | .more _ first _ rest => max first.need (1 + rest.need)

def Primary.need : Primary → Nat
  | .number _ => 0
  | .parens _ inside _ => 1 + inside.need

end

mutual

def Formula.need : Formula → Nat
  | .negation _ inside => 1 + inside.need
  | .last only => only.need
  | .more first _ rest => max first.need (1 + rest.need)

def Atom.need : Atom → Nat
  | .parens _ inside _ => 1 + inside.need
  | .referenceFirst _ _ right => right.need
  | .valueFirst left _ _ _ => left.need

end

def filterNeed : Option (Span × Formula) → Nat
  | none => 0
  | some (_, formula) => formula.need

mutual

def Relations.need : Relations → Nat
  | .last only => only.need
  | .more first _ rest => max first.need (1 + rest.need)

def Operand.need : Operand → Nat
  | .mk term _ filter => max term.need (filterNeed filter)

def Term.need : Term → Nat
  | .parens _ inside _ => 1 + inside.need
  | .binding _ _ _ => 0

end

/-- The sign of a sum negates its first product, that of a factor the factor alone. -/
def withSign (sign : Option Span) (x : Float) : Float := if sign.isSome then -x else x

mutual

def Sum.value : Sum → Float
  | .last sign only => withSign sign only.value
  | .more sign first op rest => op.meaning.apply (withSign sign first.value) rest.value

def Product.value : Product → Float
  | .last only => only.value
  | .more first op rest => op.meaning.apply first.value rest.value

def Factors.value : Factors → Float
  | .last sign only => withSign sign only.value
  | .more sign first op rest => op.meaning.apply (withSign sign first.value) rest.value

def Primary.value : Primary → Float
  | .number numeral => numeral.value
  | .parens _ inside _ => inside.value

end

/-- The range from the first to the last token of a row. -/
def extent : List (Located Token) → Span
  | [] => .origin
  | t :: rest => t.span.merge (rest.getLastD t).span

theorem extent_of_passes {c d : Cursor} {tokens : List (Located Token)}
    (passes : c.Passes tokens d) (present : tokens ≠ []) :
    extent tokens = c.current.span.merge d.last := by
  cases tokens with
  | nil => exact absurd rfl present
  | cons t rest => rw [extent, passes.last, passes.1]

def Sum.tree (s : Sum) : Query := .ofValue s.value (extent s.tokens)

def Reference.tree (r : Reference) : Query :=
  .ofReference (r.name.token .word) (r.property.token .word)

mutual

def Formula.tree : Formula → Query
  | .negation _ inside => .branch .negation [inside.tree]
  | .last only => only.tree
  | .more first op rest => .branch op.meaning [first.tree, rest.tree]

def Atom.tree : Atom → Query
  | .parens _ inside _ => inside.tree
  | .referenceFirst left op right => .ofPredicate left.tree (op.token .comparison) right.tree
  | .valueFirst left _ op right => .ofPredicate left.tree (op.token .comparison) right.tree

end

def withPlus (plus : Option Span) (inner : Query) : Query :=
  if plus.isSome then .branch .repetition [inner] else inner

def withFilter (filter : Option (Span × Formula)) (inner : Query) : Query :=
  match filter with
  | none => inner
  | some (_, formula) => .branch .filter [inner, formula.tree]

mutual

def Relations.tree : Relations → Query
  | .last only => only.tree
  | .more first op rest => .branch op.meaning [first.tree, rest.tree]

def Operand.tree : Operand → Query
  | .mk term plus filter => withFilter filter (withPlus plus term.tree)

def Term.tree : Term → Query
  | .parens _ inside _ => inside.tree
  | .binding relation _ name => .ofBinding (relation.token .relation) (name.token .word)

end

end Derivation

end EventQuery
