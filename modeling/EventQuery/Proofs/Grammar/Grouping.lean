import EventQuery.Proofs.Grammar.Concurrence
import EventQuery.Proofs.Grammar.Parentheses
import EventQuery.Proofs.Grammar.Shortage

/- Parentheses that change nothing: around a whole phrase, and around what follows an operator of
a chain. The phrase in parentheses has a derivation of its own, which stands for the same tree
and may only need more levels of nesting. -/

set_option autoImplicit false

namespace EventQuery

open EventQuery.Query (SameButPlaces)

/-- A row of tokens in parentheses. -/
def parenthesized (tokens : List Token) : List Token := .leftParen :: (tokens ++ [.rightParen])

namespace Derivation

theorem values_enclose (opening closing : Span) (inside : List (Located Token)) :
    values (enclose opening inside closing) = parenthesized (values inside) := by
  simp [values, enclose, parenthesized]

section Rows

variable {α : Type} {j op : α} {front back first rest : List α}

theorem split_append (same : first ++ rest = front ++ j :: back) :
    (∃ more, first = front ++ j :: more ∧ back = more ++ rest) ∨
      ∃ gap, front = first ++ gap ∧ rest = gap ++ j :: back := by
  rcases List.append_eq_append_iff.mp same with ⟨gap, before, behind⟩ | ⟨more, before, behind⟩
  · exact .inr ⟨gap, before, behind⟩
  · cases more with
    | nil => exact .inr ⟨[], by simpa using before.symm, behind.symm⟩
    | cons t more =>
      cases behind
      exact .inl ⟨more, before, rfl⟩

/-- In a chain a token stands in the head, or is the operator, or stands in the rest. -/
theorem split_chain (same : first ++ op :: rest = front ++ j :: back) :
    (∃ more, first = front ++ j :: more ∧ back = more ++ op :: rest) ∨
      (front = first ∧ op = j ∧ rest = back) ∨
      ∃ gap, front = first ++ op :: gap ∧ rest = gap ++ j :: back := by
  rcases split_append same with within | ⟨gap, rfl, behind⟩
  · exact .inl within
  · cases gap with
    | nil =>
      cases behind
      exact .inr (.inl ⟨List.append_nil _, rfl, rfl⟩)
    | cons t gap =>
      cases behind
      exact .inr (.inr ⟨gap, rfl, rfl⟩)

end Rows

/-- No parenthesis is closed in the row that was not opened in it. -/
def Unbroken (tokens : List (Located Token)) : Prop :=
  ∀ front, front <+: values tokens → 0 ≤ balance front

theorem unbroken_of_balanced {limit : Nat} {tokens : List (Located Token)}
    (balanced : Balanced limit (values tokens)) : Unbroken tokens :=
  fun front begins => (balanced.within front begins).1

section Enclosed

variable {limit : Nat} {opening closing : Span} {inside front more : List (Located Token)}
  {j : Located Token}

/-- Behind a token in parentheses these are closed, so what follows it is broken. -/
theorem not_unbroken_of_enclose (balanced : Balanced limit (values inside))
    (opens : j.value ≠ .leftParen) (closes : j.value ≠ .rightParen)
    (same : enclose opening inside closing = front ++ j :: more) (behind : List (Located Token)) :
    ¬ Unbroken (more ++ behind) := by
  intro unbroken
  cases front with
  | nil =>
    cases same
    exact opens rfl
  | cons t front =>
    have within : inside ++ [⟨.rightParen, closing⟩] = front ++ j :: more :=
      (List.cons.inj same).2
    rcases split_append within with ⟨last, rfl, rfl⟩ | ⟨gap, _, ended⟩
    · have opened := (balanced.within (values (front ++ [j]))
        ⟨values last, by simp [values]⟩).1
      have closed := balanced.closes
      have row : values (front ++ j :: last) = values (front ++ [j]) ++ values last := by
        simp [values]
      rw [row, balance_append] at closed
      have broken := unbroken (values last ++ [.rightParen]) ⟨values behind, by simp [values]⟩
      rw [balance_append, balance_rightParen] at broken
      omega
    · cases gap with
      | nil =>
        cases ended
        exact closes rfl
      | cons u gap => simp at ended

end Enclosed

theorem relational?_of_isArithmetic {t : Token} (arithmetic : isArithmetic t = true) :
    relational? t = none := by
  cases t <;> first | rfl | cases arithmetic

theorem logical?_of_isArithmetic {t : Token} (arithmetic : isArithmetic t = true) :
    logical? t = none := by
  cases t <;> first | rfl | cases arithmetic

mutual

theorem Formula.not_relational : ∀ d : Formula, ∀ t ∈ d.tokens, relational? t.value = none
  | .negation keyword inside => by
    simp only [Formula.tokens, List.forall_mem_cons]
    exact ⟨rfl, inside.not_relational⟩
  | .last only => by
    simp only [Formula.tokens]
    exact only.not_relational
  | .more first op rest => by
    have joins : relational? op.token.value = none := by
      have known := op.known
      revert known
      cases op.token.value <;> intro known <;> first | rfl | cases known
    simp only [Formula.tokens, List.forall_mem_append, List.forall_mem_cons]
    exact ⟨first.not_relational, joins, rest.not_relational⟩

theorem Atom.not_relational : ∀ d : Atom, ∀ t ∈ d.tokens, relational? t.value = none
  | .parens opening inside closing => by
    simp only [Atom.tokens, enclose, List.forall_mem_cons, List.forall_mem_append]
    exact ⟨rfl, inside.not_relational, rfl, fun _ absent => by cases absent⟩
  | .referenceFirst left op right => by
    simp only [Atom.tokens, Reference.tokens, List.forall_mem_append, List.forall_mem_cons]
    exact ⟨⟨rfl, rfl, rfl, fun _ absent => by cases absent⟩, rfl,
      fun t member => relational?_of_isArithmetic (right.arithmetic t member)⟩
  | .valueFirst left _ op right => by
    simp only [Atom.tokens, Reference.tokens, List.forall_mem_append, List.forall_mem_cons]
    exact ⟨fun t member => relational?_of_isArithmetic (left.arithmetic t member), rfl, rfl, rfl,
      rfl, fun _ absent => by cases absent⟩

end

variable {front more : List (Located Token)} {j : Located Token} {kind : Query.Kind}

theorem ne_paren_of_relational? {t : Token} (known : relational? t = some kind) :
    t ≠ .leftParen ∧ t ≠ .rightParen := by
  cases t <;> first | exact ⟨Token.noConfusion, Token.noConfusion⟩ | cases known

/-- Inside an operand an operator between relations stands in parentheses only. -/
theorem Operand.not_unbroken (o : Operand) (known : relational? j.value = some kind)
    (same : o.tokens = front ++ j :: more) (behind : List (Located Token)) :
    ¬ Unbroken (more ++ behind) := by
  have absent {tokens gap rest : List (Located Token)}
      (none : ∀ t ∈ tokens, relational? t.value = none) (here : tokens = gap ++ j :: rest) :
      False := by
    have unknown := none j (by simp [here])
    rw [unknown] at known
    cases known
  obtain ⟨term, plus, filter⟩ := o
  rcases split_append same with ⟨rest, inner, rfl⟩ | ⟨gap, _, here⟩
  · rcases split_append inner with ⟨rest, within, rfl⟩ | ⟨gap, _, here⟩
    · cases term with
      | parens opening inside closing =>
        obtain ⟨opens, closes⟩ := ne_paren_of_relational? known
        rw [List.append_assoc, List.append_assoc]
        exact not_unbroken_of_enclose inside.balanced opens closes within _
      | binding relation keyword name =>
        refine (absent ?_ within).elim
        simp only [Term.tokens, List.forall_mem_cons]
        exact ⟨rfl, rfl, rfl, fun _ absent => by cases absent⟩
    · refine (absent ?_ here).elim
      cases plus with
      | none => exact fun _ absent => by cases absent
      | some span => exact List.forall_mem_singleton.mpr rfl
  · refine (absent ?_ here).elim
    cases filter with
    | none => exact fun _ absent => by cases absent
    | some filter => exact List.forall_mem_cons.mpr ⟨rfl, filter.2.not_relational⟩

/-- What follows an operator of a chain may stand in parentheses, since the chain groups to the
right. By recursion on the chain. -/
theorem Relations.regroup : ∀ (d : Relations) {front back : List (Located Token)},
    d.tokens = front ++ j :: back → relational? j.value = some kind → Unbroken back →
      ∃ d' : Relations, d'.tokens = front ++ j :: enclose .origin back .origin ∧ d'.tree = d.tree
  | .last only, front, back, same, known, unbroken => by
    have broken := only.not_unbroken known same []
    rw [List.append_nil] at broken
    exact absurd unbroken broken
  | .more first op rest, front, back, same, known, unbroken => by
    rcases split_chain same with ⟨more, inside, rfl⟩ | ⟨rfl, rfl, rfl⟩ | ⟨gap, rfl, later⟩
    · exact absurd unbroken (first.not_unbroken known inside _)
    · refine ⟨.more first op (.last (.mk (.parens .origin rest .origin) none none)), ?_, rfl⟩
      simp [Relations.tokens, Operand.tokens, Term.tokens, optionalToken, filterTokens]
    · obtain ⟨rest', spelled, tree⟩ := rest.regroup later known unbroken
      refine ⟨.more first op rest', ?_, ?_⟩
      · rw [Relations.tokens, spelled, List.append_assoc, List.cons_append]
      · rw [Relations.tree, Relations.tree, tree]

theorem ne_paren_of_logical? {t : Token} (known : logical? t = some kind) :
    t ≠ .leftParen ∧ t ≠ .rightParen := by
  cases t <;> first | exact ⟨Token.noConfusion, Token.noConfusion⟩ | cases known

theorem Atom.not_unbroken (a : Atom) (known : logical? j.value = some kind)
    (same : a.tokens = front ++ j :: more) (behind : List (Located Token)) :
    ¬ Unbroken (more ++ behind) := by
  have absent (none : ∀ t ∈ a.tokens, logical? t.value = none) : False := by
    have unknown := none j (by simp [same])
    rw [unknown] at known
    cases known
  cases a with
  | parens opening inside closing =>
    obtain ⟨opens, closes⟩ := ne_paren_of_logical? known
    exact not_unbroken_of_enclose inside.balanced opens closes same behind
  | referenceFirst left op right =>
    refine (absent ?_).elim
    simp only [Atom.tokens, Reference.tokens, List.forall_mem_append, List.forall_mem_cons]
    exact ⟨⟨rfl, rfl, rfl, fun _ absent => by cases absent⟩, rfl,
      fun t member => logical?_of_isArithmetic (right.arithmetic t member)⟩
  | valueFirst left bare op right =>
    refine (absent ?_).elim
    simp only [Atom.tokens, Reference.tokens, List.forall_mem_append, List.forall_mem_cons]
    exact ⟨fun t member => logical?_of_isArithmetic (left.arithmetic t member), rfl, rfl, rfl,
      rfl, fun _ absent => by cases absent⟩

theorem Formula.regroup : ∀ (d : Formula) {front back : List (Located Token)},
    d.tokens = front ++ j :: back → logical? j.value = some kind → Unbroken back →
      ∃ d' : Formula, d'.tokens = front ++ j :: enclose .origin back .origin ∧ d'.tree = d.tree
  | .negation keyword inside, front, back, same, known, unbroken => by
    cases front with
    | nil =>
      cases same
      cases known
    | cons t front =>
      have later : inside.tokens = front ++ j :: back := (List.cons.inj same).2
      obtain ⟨inside', spelled, tree⟩ := inside.regroup later known unbroken
      refine ⟨.negation keyword inside', ?_, ?_⟩
      · rw [Formula.tokens, spelled, (List.cons.inj same).1]
        rfl
      · rw [Formula.tree, Formula.tree, tree]
  | .last only, front, back, same, known, unbroken => by
    have broken := only.not_unbroken known same []
    rw [List.append_nil] at broken
    exact absurd unbroken broken
  | .more first op rest, front, back, same, known, unbroken => by
    rcases split_chain same with ⟨more, inside, rfl⟩ | ⟨rfl, rfl, rfl⟩ | ⟨gap, rfl, later⟩
    · exact absurd unbroken (first.not_unbroken known inside _)
    · exact ⟨.more first op (.last (.parens .origin rest .origin)), rfl, rfl⟩
    · obtain ⟨rest', spelled, tree⟩ := rest.regroup later known unbroken
      refine ⟨.more first op rest', ?_, ?_⟩
      · rw [Formula.tokens, spelled, List.append_assoc, List.cons_append]
      · rw [Formula.tree, Formula.tree, tree]

end Derivation

open EventQuery.Derivation

theorem Grammar.ahead_of_wholeQuery {budget : Nat} {c e : Cursor} {tree : Query}
    (parsed : wholeQuery budget c = .ok (tree, e)) : e.ahead = [] := by
  unfold wholeQuery at parsed
  cases ran : query budget c with
  | error f =>
    rw [Parser.bind_of_error ran] at parsed
    cases parsed
  | ok result =>
    obtain ⟨found, d⟩ := result
    rw [Parser.bind_of_ok ran] at parsed
    have checked : (if d.atEnd then pure found else Parser.fail .endOfInput : Parser Query) d =
        .ok (tree, e) := parsed
    by_cases ended : d.atEnd = true
    · rw [if_pos ended] at checked
      cases checked
      exact List.isEmpty_iff.mp ended
    · rw [if_neg ended] at checked
      cases checked

namespace Session

variable {α : Type} {R : α → α → Prop}

/-- If the run does not end at the limit of nesting, it passes all tokens, with a result that is
related to `a`. -/
def Keeps (R : α → α → Prop) (a : α) (outcome : Except SyntaxError α × Session) : Prop :=
  (∀ e, outcome.1 = .error e → e.fault ≠ .unexpected .shallower) →
    ∃ a', outcome.1 = .ok a' ∧ R a a' ∧ outcome.2.cursor.atEnd = true

/-- A run over tokens that are read with levels enough. With fewer levels the parser stops at the
limit, and other places of the same tokens change places only. -/
theorem run_keeps {parser : Nat → Parser α} {s : Session} {tokens : List (Located Token)} {a : α}
    (enough : Nat) (ahead : values s.cursor.ahead = values tokens)
    (retraces : ∀ budget c, Parser.Retraces R (parser budget) (parser budget) c)
    (curtails : ∀ {budget larger}, budget ≤ larger → (parser budget).Curtails (parser larger))
    (reads : ∀ {budget c e}, enough ≤ budget → c.Passes tokens e → e.ahead = [] →
      parser budget c = .ok (a, e)) :
    Keeps R a (s.run parser) := by
  intro within
  obtain ⟨e, passes, ended⟩ := Cursor.exists_passes tokens ⟨0, tokens, .origin, .origin⟩ []
    (List.append_nil _).symm
  let there : Session := ⟨s.sourceName, ⟨0, tokens, .origin, .origin⟩, s.depth⟩
  have like : there.SeesLike s := ⟨rfl, ahead.symm⟩
  have concurs := run_concurs like retraces
  have whole := reads (Nat.le_max_right (maxNesting - there.depth) enough) passes ended
  rcases curtails (Nat.le_max_left (maxNesting - there.depth) enough) there.cursor with
    same | ⟨f, failed, limit⟩
  · have ran := run_of_ok (same.trans whole)
    have results := concurs.results
    have left := concurs.sees.ahead
    rw [ran] at results left
    cases found : (s.run parser).1 with
    | ok a' =>
      rw [found] at results
      have nothing : (values (s.run parser).2.cursor.ahead).length = 0 := by
        rw [← left, ended]
        rfl
      rw [length_values] at nothing
      exact ⟨a', rfl, results, List.isEmpty_iff.mpr (List.length_eq_zero_iff.mp nothing)⟩
    | error e =>
      rw [found] at results
      exact results.elim
  · have results := concurs.results
    rw [run_of_error failed] at results
    cases found : (s.run parser).1 with
    | ok a' =>
      rw [found] at results
      exact results.elim
    | error e =>
      rw [found] at results
      have fault : f.fault = e.fault := results.fault
      exact absurd (fault.symm.trans limit) (within e found)

variable {s : Session}

theorem evaluate_keeps (d : Sum) (ahead : values s.cursor.ahead = values d.tokens) :
    Keeps Eq d.value (s.run (Arithmetic.evaluate Arithmetic.levels)) := by
  refine run_keeps d.need ahead (fun budget => Arithmetic.expression_retraces _ budget _)
    (fun fewer => Arithmetic.sum_curtails _ _ fewer) fun fits passes ended => ?_
  refine Arithmetic.sum_of_passes d fits passes ?_
  rw [Cursor.current, ended]
  exact ⟨rfl, rfl⟩

theorem formula_keeps (d : Formula) (ahead : values s.cursor.ahead = values d.tokens) :
    Keeps SameButPlaces d.tree (s.run Grammar.formula) := by
  refine run_keeps d.need ahead Grammar.formula_retraces
    (fun fewer => Grammar.formula_curtails _ _ fewer) fun fits passes ended => ?_
  refine Grammar.formula_of_passes d fits passes ?_
  rw [Cursor.current, ended]
  exact ⟨⟨rfl, rfl⟩, rfl⟩

theorem parse_keeps (d : Relations) (ahead : values s.cursor.ahead = values d.tokens) :
    Keeps SameButPlaces d.tree s.parse := by
  have anew : values { s with depth := 0 }.cursor.ahead = values d.tokens := ahead
  exact run_keeps d.need anew Grammar.wholeQuery_retraces Grammar.wholeQuery_curtails
    fun fits passes ended => Grammar.wholeQuery_of_passes d fits passes ended

theorem exists_sum {after : Session} {x : Float}
    (ran : s.run (Arithmetic.evaluate Arithmetic.levels) = (.ok x, after))
    (ended : after.cursor.atEnd = true) : ∃ d : Sum, d.tokens = s.cursor.ahead ∧ d.value = x := by
  obtain ⟨c, computed, rfl⟩ := run_eq_ok_iff.mp ran
  obtain ⟨tokens, passes, ⟨d, _, rfl, value⟩, _⟩ :=
    (Arithmetic.sum_reads (maxNesting - s.depth) s.cursor).ok computed
  have row := passes.ahead
  rw [List.isEmpty_iff.mp ended, List.append_nil] at row
  exact ⟨d, row.symm, value⟩

theorem exists_formula {after : Session} {tree : Query}
    (ran : s.run Grammar.formula = (.ok tree, after)) (ended : after.cursor.atEnd = true) :
    ∃ d : Formula, d.tokens = s.cursor.ahead ∧ d.tree = tree := by
  obtain ⟨c, parsed, rfl⟩ := run_eq_ok_iff.mp ran
  obtain ⟨tokens, passes, ⟨d, _, rfl, tree⟩, _⟩ :=
    (Grammar.formula_reads (maxNesting - s.depth) s.cursor).ok parsed
  have row := passes.ahead
  rw [List.isEmpty_iff.mp ended, List.append_nil] at row
  exact ⟨d, row.symm, tree⟩

theorem exists_relations {tree : Query} (parsed : s.parse.1 = .ok tree) :
    ∃ d : Relations, d.tokens = s.cursor.ahead ∧ d.tree = tree := by
  have ran : { s with depth := 0 }.run Grammar.wholeQuery = (.ok tree, s.parse.2) := by
    rw [← parsed]
    rfl
  obtain ⟨c, whole, _⟩ := run_eq_ok_iff.mp ran
  obtain ⟨tokens, passes, ⟨d, _, rfl, meaning⟩, _⟩ :=
    (Grammar.wholeQuery_reads _ s.cursor).ok whole
  have row := passes.ahead
  rw [Grammar.ahead_of_wholeQuery whole, List.append_nil] at row
  exact ⟨d, row.symm, meaning⟩

end Session

theorem exists_split_of_values {tokens : List (Located Token)} {before behind : List Token}
    {op : Token} (row : values tokens = before ++ op :: behind) :
    ∃ front j back, tokens = front ++ j :: back ∧ values front = before ∧ j.value = op ∧
      values back = behind := by
  obtain ⟨front, rest, rfl, same, later⟩ := List.map_eq_append_iff.mp row
  obtain ⟨j, back, rfl, here, last⟩ := List.map_eq_cons_iff.mp later
  exact ⟨front, j, back, rfl, same, here, last⟩

theorem values_regrouped (front back : List (Located Token)) (j : Located Token) :
    values (front ++ j :: enclose .origin back .origin) =
      values front ++ j.value :: parenthesized (values back) := by
  rw [← values_enclose .origin .origin]
  simp [values]

open Session (Keeps)

/-- A query, a formula or a sum that takes up all tokens stays the same in parentheses. So does a query
or a formula if its part behind an operator is put in parentheses, where that part is a whole one of
its own. Only the limit of nesting can be in the way. -/
theorem parentheses_transparent (s s' : Session) :
    (∀ tree, s.parse.1 = .ok tree →
      values s'.cursor.ahead = parenthesized (values s.cursor.ahead) →
      Keeps SameButPlaces tree s'.parse) ∧
    (∀ (part : Session) tree inner before op, op = .colon ∨ op = .pipe →
      s.parse.1 = .ok tree → part.parse.1 = .ok inner →
      values s.cursor.ahead = before ++ op :: values part.cursor.ahead →
      values s'.cursor.ahead = before ++ op :: parenthesized (values part.cursor.ahead) →
      Keeps SameButPlaces tree s'.parse) ∧
    (∀ tree after, s.run Grammar.formula = (.ok tree, after) → after.cursor.atEnd = true →
      values s'.cursor.ahead = parenthesized (values s.cursor.ahead) →
      Keeps SameButPlaces tree (s'.run Grammar.formula)) ∧
    (∀ (part : Session) tree inner after after' before text,
      s.run Grammar.formula = (.ok tree, after) → after.cursor.atEnd = true →
      part.run Grammar.formula = (.ok inner, after') → after'.cursor.atEnd = true →
      values s.cursor.ahead = before ++ .connective text :: values part.cursor.ahead →
      values s'.cursor.ahead =
        before ++ .connective text :: parenthesized (values part.cursor.ahead) →
      Keeps SameButPlaces tree (s'.run Grammar.formula)) ∧
    ∀ x after, s.run (Arithmetic.evaluate Arithmetic.levels) = (.ok x, after) →
      after.cursor.atEnd = true →
      values s'.cursor.ahead = parenthesized (values s.cursor.ahead) →
      Keeps Eq x (s'.run (Arithmetic.evaluate Arithmetic.levels)) := by
  refine ⟨?query, ?queryPart, ?formula, ?formulaPart, ?sum⟩
  case query =>
    intro tree parsed ahead
    obtain ⟨d, spells, rfl⟩ := Session.exists_relations parsed
    let whole : Relations := .last (.mk (.parens .origin d .origin) none none)
    have spelled : whole.tokens = enclose .origin d.tokens .origin := by
      simp [whole, Relations.tokens, Operand.tokens, Term.tokens, optionalToken, filterTokens]
    exact Session.parse_keeps whole (by rw [ahead, spelled, values_enclose, spells])
  case queryPart =>
    intro part tree inner before op joins parsed partParsed row ahead
    obtain ⟨d, spells, rfl⟩ := Session.exists_relations parsed
    obtain ⟨e, partSpells, _⟩ := Session.exists_relations partParsed
    rw [← spells] at row
    obtain ⟨front, j, back, split, rfl, rfl, behind⟩ := exists_split_of_values row
    have unbroken : Unbroken back := by
      have balanced := e.balanced
      rw [partSpells, ← behind] at balanced
      exact unbroken_of_balanced balanced
    obtain ⟨kind, known⟩ : ∃ kind, relational? j.value = some kind := by
      rcases joins with colon | pipe
      · exact ⟨.sequence, by rw [colon]; rfl⟩
      · exact ⟨.alternative, by rw [pipe]; rfl⟩
    obtain ⟨d', regrouped, same⟩ := d.regroup split known unbroken
    rw [← same]
    exact Session.parse_keeps d' (by rw [ahead, regrouped, values_regrouped, behind])
  case formula =>
    intro tree after ran ended ahead
    obtain ⟨d, spells, rfl⟩ := Session.exists_formula ran ended
    let whole : Formula := .last (.parens .origin d .origin)
    have spelled : whole.tokens = enclose .origin d.tokens .origin := rfl
    exact Session.formula_keeps whole (by rw [ahead, spelled, values_enclose, spells])
  case formulaPart =>
    intro part tree inner after after' before text ran ended partRan partEnded row ahead
    obtain ⟨d, spells, rfl⟩ := Session.exists_formula ran ended
    obtain ⟨e, partSpells, _⟩ := Session.exists_formula partRan partEnded
    rw [← spells] at row
    obtain ⟨front, j, back, split, rfl, connects, behind⟩ := exists_split_of_values row
    have unbroken : Unbroken back := by
      have balanced := e.balanced
      rw [partSpells, ← behind] at balanced
      exact unbroken_of_balanced balanced
    have known : logical? j.value = some (if text = "or" then .disjunction else .conjunction) := by
      rw [connects]
      rfl
    obtain ⟨d', regrouped, same⟩ := d.regroup split known unbroken
    rw [← same]
    exact Session.formula_keeps d' (by rw [ahead, regrouped, values_regrouped, connects, behind])
  case sum =>
    intro x after ran ended ahead
    obtain ⟨d, spells, rfl⟩ := Session.exists_sum ran ended
    let whole : Sum := .last none (.last (.parens .origin d .origin))
    have spelled : whole.tokens = enclose .origin d.tokens .origin := rfl
    exact Session.evaluate_keeps whole (by rw [ahead, spelled, values_enclose, spells])

namespace Derivation

/-- `A as x`, with names of one letter. -/
def letters (relation name : String) : Operand :=
  .mk (.binding ⟨relation, .origin⟩ .origin ⟨name, .origin⟩) none none

theorem relational?_colon : relational? .colon = some .sequence := rfl

def sequenced (first : Operand) (rest : Relations) : Relations :=
  .more first ⟨⟨.colon, .origin⟩, .sequence, relational?_colon⟩ rest

/-- `B as y : C as z` -/
def laterPart : Relations := sequenced (letters "B" "y") (.last (letters "C" "z"))

/-- `name.p == 0` -/
def isZero (name : String) : Atom :=
  .referenceFirst ⟨⟨name, .origin⟩, .origin, ⟨"p", .origin⟩⟩ ⟨.equal, .origin⟩
    (.last none (.last (.number zero)))

theorem logical?_and : logical? (.connective "and") = some .conjunction := rfl

/-- `not x.p == 0 and …`: the whole conjunction is negated. -/
def negated (last : Atom) : Formula :=
  .negation .origin
    (.more (isZero "x") ⟨⟨.connective "and", .origin⟩, .conjunction, logical?_and⟩ (.last last))

end Derivation

/-- A session before tokens at no place in particular. -/
def Session.before (tokens : List Token) (depth : Nat) : Session :=
  ⟨"q", ⟨0, tokens.map (⟨·, .origin⟩), .origin, .origin⟩, depth⟩

theorem Session.exists_run_formula (d : Formula) {s : Session} (ahead : s.cursor.ahead = d.tokens)
    (fits : d.need ≤ maxNesting - s.depth) :
    ∃ after, s.run Grammar.formula = (.ok d.tree, after) ∧ after.cursor.atEnd = true := by
  obtain ⟨e, passes, ended⟩ := Cursor.exists_passes d.tokens s.cursor []
    (by rw [ahead, List.append_nil])
  have stop : EndsFormula e.current.value := by
    rw [Cursor.current, ended]
    exact ⟨⟨rfl, rfl⟩, rfl⟩
  exact ⟨_, run_of_ok (Grammar.formula_of_passes d fits passes stop), List.isEmpty_iff.mpr ended⟩

/-- `A as x : (B as y : C as z)` -/
def groupedQuery : Session :=
  .before ([.relation "A", .asKeyword, .word "x", .colon] ++
    parenthesized (values laterPart.tokens)) 0

/-- `not x.p == 0 and (y.p == 0)`, with as many levels of nesting left as are needed. -/
def groupedFormula : Session :=
  .before ([.notKeyword, .word "x", .dot, .word "p", .comparison .equal, .number "0",
    .connective "and"] ++ parenthesized (values (isZero "y").tokens)) 125

theorem grouped_transparent :
    (∃ tree, groupedQuery.parse.1 = .ok tree ∧
      SameButPlaces (sequenced (letters "A" "x") laterPart).tree tree) ∧
    ∃ tree, (groupedFormula.run Grammar.formula).1 = .ok tree ∧
      SameButPlaces (negated (isZero "y")).tree tree := by
  constructor
  · let whole := Session.before (values (sequenced (letters "A" "x") laterPart).tokens) 0
    let part := Session.before (values laterPart.tokens) 0
    have parsed : whole.parse.1 = .ok (sequenced (letters "A" "x") laterPart).tree := by cbv
    have partParsed : part.parse.1 = .ok laterPart.tree := by cbv
    have accepted : groupedQuery.parse.1.toOption.isSome = true := by cbv
    obtain ⟨_, regroups, _⟩ := parentheses_transparent whole groupedQuery
    have keeps := regroups part _ _ [.relation "A", .asKeyword, .word "x"] .colon (.inl rfl) parsed
      partParsed (by decide) (by decide)
    obtain ⟨tree, kept, same, _⟩ := keeps fun e failed => by
      rw [failed] at accepted
      cases accepted
    exact ⟨tree, kept, same⟩
  · let whole := Session.before (values (negated (isZero "y")).tokens) 126
    let part := Session.before (values (isZero "y").tokens) 128
    obtain ⟨after, ran, ended⟩ :=
      Session.exists_run_formula (negated (isZero "y")) (show whole.cursor.ahead = _ by rfl)
        (by decide)
    obtain ⟨after', partRan, partEnded⟩ :=
      Session.exists_run_formula (.last (isZero "y")) (show part.cursor.ahead = _ by rfl)
        (by decide)
    obtain ⟨_, accepted, _⟩ :=
      Session.exists_run_formula (negated (.parens .origin (.last (isZero "y")) .origin))
        (show groupedFormula.cursor.ahead = _ by rfl) (by decide)
    obtain ⟨_, _, _, regroups, _⟩ := parentheses_transparent whole groupedFormula
    have keeps := regroups part _ _ after after'
      [.notKeyword, .word "x", .dot, .word "p", .comparison .equal, .number "0"] "and" ran ended
      partRan partEnded (by decide) (by decide)
    obtain ⟨tree, kept, same, _⟩ := keeps fun e failed => by
      rw [accepted] at failed
      cases failed
    exact ⟨tree, kept, same⟩

end EventQuery
