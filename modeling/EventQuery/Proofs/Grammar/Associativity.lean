import EventQuery.Proofs.Grammar.Stepwise

/- The associativity of a chain decides how its operands are grouped, and nothing else. A chain
to the left and a chain to the right pass the same operators, read the same operands at the same
depths and fail alike. This holds of operands that are read in whatever way, from whatever the
session is. -/

set_option autoImplicit false

namespace EventQuery

section Grouping

variable {α ω : Type} (combine : ω → α → α → α)

/-- Every operator takes what was combined before it. -/
def groupLeft (first : α) (links : List (ω × α)) : α :=
  links.foldl (fun before link => combine link.1 before link.2) first

/-- Every operator takes what is combined behind it. -/
def groupRight : α → List (ω × α) → α
  | first, [] => first
  | first, (op, x) :: rest => combine op first (groupRight x rest)

end Grouping

namespace Walk

section Chains

variable {α ω : Type} (operator : Token → Option ω) (combine : ω → α → α → α) (operand : Walk α)

/-- The chain that continues `first`, all its operands being read in one way. -/
def climbing (associativity : Associativity) (first : α) : Walk α := fun t =>
  climb associativity operator combine (maxNesting - t.session.depth) (fun _ _ => operand) first t

/-- Passes an operator and reads the operand behind it. -/
def behind : Walk α := do
  let _ ← advance
  operand

/-- From one trail to another stand operators with an operand behind each. Every operator has a
level, in which its operand is read and which stays open. -/
inductive Links : Trail → List (ω × α) → Trail → Prop
  | nil (t : Trail) : Links t [] t
  | cons {t u e : Trail} {op : ω} {x : α} {links : List (ω × α)}
    (here : operator t.session.cursor.current.value = some op)
    (room : t.session.depth < maxNesting) (read : behind operand t.deepened = .ok x u)
    (rest : Links u links e) : Links t ((op, x) :: links) e

/-- At an operator a chain breaks: there is no level for it, or there is one and no operand can be
read in it. The number is that of the levels which are opened. -/
inductive Breaks (e : Trail) : Nat → SyntaxError → Trail → Prop
  | full {op : ω} (here : operator e.session.cursor.current.value = some op)
    (full : maxNesting ≤ e.session.depth) :
    Breaks e 0 ⟨e.session.sourceName, .unexpected .shallower, e.session.cursor.current⟩ e
  | operand {op : ω} {err : SyntaxError} {u : Trail}
    (here : operator e.session.cursor.current.value = some op)
    (room : e.session.depth < maxNesting) (failed : behind operand e.deepened = .error err u) :
    Breaks e 1 err u

end Chains

section Steps

variable {α ω : Type} {operator : Token → Option ω} {combine : ω → α → α → α} {operand : Walk α}
  {t u e : Trail} {first : α}

theorem climbLeft_of_none (stop : operator t.session.cursor.current.value = none)
    (budget n : Nat) :
    climbLeft operator combine budget (fun _ _ => operand) n first t =
      .ok first (t.released n) := by
  rw [climbLeft, bind_of_ok peek_run, stop]
  exact bind_of_ok (release_run n t) _

theorem climbRight_of_none (stop : operator t.session.cursor.current.value = none) (budget : Nat) :
    climbRight operator combine budget (fun _ _ => operand) first t = .ok first t := by
  rw [climbRight, bind_of_ok peek_run, stop]
  rfl

/-- A budget for the levels that are left is one for a level and for those that are left behind it. -/
theorem exists_budget_behind {budget : Nat} (room : t.session.depth < maxNesting)
    (enough : maxNesting ≤ t.session.depth + budget) :
    ∃ k, budget = k + 1 ∧ maxNesting ≤ t.deepened.session.depth + k := by
  have one : t.deepened.session.depth = t.session.depth + 1 := rfl
  exact ⟨budget - 1, by omega, by omega⟩

/-- With room for the operator, a chain to the left goes on behind it in the level that was
opened. -/
theorem climbLeft_of_some {op : ω} (here : operator t.session.cursor.current.value = some op)
    (room : t.session.depth < maxNesting) (budget n : Nat) :
    climbLeft operator combine (budget + 1) (fun _ _ => operand) n first t =
      (behind operand >>= fun next =>
        climbLeft operator combine budget (fun _ _ => operand) (n + 1) (combine op first next))
        t.deepened := by
  rw [climbLeft, bind_of_ok peek_run, here]
  simp only [behind, bind_assoc]
  exact bind_of_ok (enter_of_room room) _

/-- With room for the operator, a chain to the right gives the level back that it goes on in. -/
theorem climbRight_of_some {op : ω} (here : operator t.session.cursor.current.value = some op)
    (room : t.session.depth < maxNesting) (budget : Nat) :
    climbRight operator combine (budget + 1) (fun _ _ => operand) first t =
      ((tryFinally (behind operand >>= fun next =>
        climbRight operator combine budget (fun _ _ => operand) next) leave) >>= fun rest =>
          pure (combine op first rest)) t.deepened := by
  rw [climbRight, bind_of_ok peek_run, here]
  simp only [behind, bind_assoc, nested]
  exact bind_of_ok (enter_of_room room) _

theorem climbLeft_of_breaks {n : Nat} {err : SyntaxError}
    (breaks : Breaks operator operand e n err u) {budget : Nat}
    (enough : maxNesting ≤ e.session.depth + budget) (levels : Nat) :
    climbLeft operator combine budget (fun _ _ => operand) levels first e = .error err u := by
  cases breaks with
  | full here full =>
    rw [climbLeft, bind_of_ok peek_run, here]
    exact bind_of_error (enter_of_full full) _
  | operand here room failed =>
    obtain ⟨k, rfl, _⟩ := exists_budget_behind room enough
    rw [climbLeft_of_some here room]
    exact bind_of_error failed _

theorem climbRight_of_breaks {n : Nat} {err : SyntaxError}
    (breaks : Breaks operator operand e n err u) {budget : Nat}
    (enough : maxNesting ≤ e.session.depth + budget) :
    climbRight operator combine budget (fun _ _ => operand) first e =
      .error err (u.released n) := by
  cases breaks with
  | full here full =>
    rw [climbRight, bind_of_ok peek_run, here]
    exact bind_of_error (bind_of_error (enter_of_full full) _) _
  | operand here room failed =>
    obtain ⟨k, rfl, _⟩ := exists_budget_behind room enough
    rw [climbRight_of_some here room]
    exact bind_of_error (finally_of_error (bind_of_error failed _)) _

end Steps

section Depth

variable {α ω : Type} {operator : Token → Option ω} {operand : Walk α} {t u e : Trail}

theorem behind_depth_of_ok
    (keeps : ∀ s x v, operand s = .ok x v → v.session.depth = s.session.depth)
    {x : α} (read : behind operand t = .ok x u) : u.session.depth = t.session.depth := by
  cases passed : advance t with
  | ok token v =>
    have went : operand v = .ok x u := (bind_of_ok passed _).symm.trans read
    rw [keeps v x u went, reading_depth_of_ok passed]
  | error err v =>
    have went : behind operand t = .error err v := bind_of_error passed _
    rw [went] at read
    cases read

theorem behind_depth_of_error
    (restores : ∀ s f v, operand s = .error f v → v.session.depth = s.session.depth)
    {err : SyntaxError} (failed : behind operand t = .error err u) :
    u.session.depth = t.session.depth := by
  cases passed : advance t with
  | ok token v =>
    have went : operand v = .error err u := (bind_of_ok passed _).symm.trans failed
    rw [restores v err u went, reading_depth_of_ok passed]
  | error err' v =>
    have went : behind operand t = .error err' v := bind_of_error passed _
    rw [went] at failed
    cases failed
    exact reading_depth_of_error (fun _ => Parser.Closes.advance) passed

/-- Every operator has opened one level. -/
theorem Links.depth (keeps : ∀ s x v, operand s = .ok x v → v.session.depth = s.session.depth)
    {links : List (ω × α)} (chained : Links operator operand t links e) :
    e.session.depth = t.session.depth + links.length := by
  induction chained with
  | nil => rfl
  | cons here room read rest ih =>
    rw [ih, behind_depth_of_ok keeps read, List.length_cons]
    show _ + 1 + _ = _
    omega

theorem Breaks.depth
    (restores : ∀ s f v, operand s = .error f v → v.session.depth = s.session.depth)
    {n : Nat} {err : SyntaxError} (breaks : Breaks operator operand e n err u) :
    u.session.depth = e.session.depth + n := by
  cases breaks with
  | full here full => rfl
  | operand here room failed => exact behind_depth_of_error restores failed

end Depth

section Chains

variable {α ω : Type} (operator : Token → Option ω) {operand : Walk α}
  (keeps : ∀ s x v, operand s = .ok x v → v.session.depth = s.session.depth)

include keeps

/-- From everywhere operators and operands are passed up to where no operator stands, or up to one
at which the chain breaks. Every operator takes a level, so that the levels that are left bound the
induction. -/
theorem exists_links (t : Trail) :
    ∃ links e, Links operator operand t links e ∧
      (operator e.session.cursor.current.value = none ∨
        ∃ n err u, Breaks operator operand e n err u) := by
  induction left : maxNesting - t.session.depth using Nat.strongRecOn generalizing t with
  | ind budget ih =>
    cases here : operator t.session.cursor.current.value with
    | none => exact ⟨[], t, .nil t, .inl here⟩
    | some op =>
      by_cases room : t.session.depth < maxNesting
      · cases ran : behind operand t.deepened with
        | error err u => exact ⟨[], t, .nil t, .inr ⟨1, err, u, .operand here room ran⟩⟩
        | ok x u =>
          have deeper : u.session.depth = t.session.depth + 1 := behind_depth_of_ok keeps ran
          have fewer : maxNesting - u.session.depth < budget := by omega
          obtain ⟨links, e, rest, ended⟩ := ih _ fewer u rfl
          exact ⟨(op, x) :: links, e, .cons here room ran rest, ended⟩
      · exact ⟨[], t, .nil t, .inr ⟨0, _, t, .full here (Nat.le_of_not_lt room)⟩⟩

variable {operator} (combine : ω → α → α → α) {t e u : Trail} {links : List (ω × α)}

theorem climbLeft_of_links (chained : Links operator operand t links e) :
    ∀ {budget : Nat}, maxNesting ≤ t.session.depth + budget → ∀ (levels : Nat) (first : α),
      ∃ k, maxNesting ≤ e.session.depth + k ∧
        climbLeft operator combine budget (fun _ _ => operand) levels first t =
          climbLeft operator combine k (fun _ _ => operand) (levels + links.length)
            (groupLeft combine first links) e := by
  induction chained with
  | nil t => exact fun enough levels first => ⟨_, enough, rfl⟩
  | @cons t u e op x links here room read rest ih =>
    intro budget enough levels first
    obtain ⟨k, rfl, within⟩ := exists_budget_behind room enough
    rw [← behind_depth_of_ok keeps read] at within
    obtain ⟨j, left, later⟩ := ih within (levels + 1) (combine op first x)
    refine ⟨j, left, ?_⟩
    rw [climbLeft_of_some here room, bind_of_ok read, later, List.length_cons,
      Nat.add_right_comm levels 1, Nat.add_assoc]
    rfl

theorem climbRight_of_links_ok (chained : Links operator operand t links e)
    (stop : operator e.session.cursor.current.value = none) :
    ∀ {budget : Nat}, maxNesting ≤ t.session.depth + budget → ∀ first : α,
      climbRight operator combine budget (fun _ _ => operand) first t =
        .ok (groupRight combine first links) (e.released links.length) := by
  induction chained with
  | nil t => exact fun _ first => climbRight_of_none stop _
  | @cons t u e op x links here room read rest ih =>
    intro budget enough first
    obtain ⟨k, rfl, within⟩ := exists_budget_behind room enough
    rw [← behind_depth_of_ok keeps read] at within
    have later := ih stop within x
    rw [climbRight_of_some here room, List.length_cons, ← Trail.released_released]
    exact bind_of_ok (finally_of_ok ((bind_of_ok read _).trans later)) _

theorem climbRight_of_links_error {n : Nat} {err : SyntaxError}
    (chained : Links operator operand t links e) (breaks : Breaks operator operand e n err u) :
    ∀ {budget : Nat}, maxNesting ≤ t.session.depth + budget → ∀ first : α,
      climbRight operator combine budget (fun _ _ => operand) first t =
        .error err (u.released (links.length + n)) := by
  induction chained with
  | nil t =>
    intro budget enough first
    rw [List.length_nil, Nat.zero_add]
    exact climbRight_of_breaks breaks enough
  | @cons t v e op x links here room read rest ih =>
    intro budget enough first
    obtain ⟨k, rfl, within⟩ := exists_budget_behind room enough
    rw [← behind_depth_of_ok keeps read] at within
    have later := ih breaks within x
    rw [climbRight_of_some here room, List.length_cons, Nat.add_right_comm,
      ← Trail.released_released]
    exact bind_of_error (finally_of_error ((bind_of_ok read _).trans later)) _

end Chains

end Walk

open Walk in
/-- Whatever the operators are, what is combined, and how operands are read, as long as an operand
that is read keeps the depth: from everywhere, a chain to the left and a chain to the right end well
both or fail both. Where they end well, they have passed the same operators and operands, which the
one groups to the left and the other to the right, and have come to the same place, at the depth of
the beginning. Where they fail, it is with the same error at the same place. The chain to the right
gives the levels of its operators back then and the chain to the left does not: with operands that
restore the depth, the one ends at the depth of the beginning and the other at as many levels more
as it has entered operators. Chains of parsers, to either side, are such chains. -/
theorem climb_groupings {α ω : Type} (operator : Token → Option ω) (combine : ω → α → α → α)
    (operand : Walk α)
    (keeps : ∀ s x v, operand s = .ok x v → v.session.depth = s.session.depth)
    (t : Trail) (first : α) :
    ((∃ links e, Links operator operand t links e ∧
        operator e.session.cursor.current.value = none ∧
        climbing operator combine operand .left first t =
          .ok (groupLeft combine first links) (e.released links.length) ∧
        climbing operator combine operand .right first t =
          .ok (groupRight combine first links) (e.released links.length) ∧
        (e.released links.length).session = { e.session with depth := t.session.depth }) ∨
      ∃ links e n err u, Links operator operand t links e ∧ Breaks operator operand e n err u ∧
        climbing operator combine operand .left first t = .error err u ∧
        climbing operator combine operand .right first t =
          .error err (u.released (links.length + n)) ∧
        (u.released (links.length + n)).session.cursor = u.session.cursor ∧
        ((∀ s f v, operand s = .error f v → v.session.depth = s.session.depth) →
          u.session.depth = t.session.depth + (links.length + n) ∧
          (u.released (links.length + n)).session.depth = t.session.depth)) ∧
    ∀ (parser : Nat → Parser α) (associativity : Associativity), t.session.depth ≤ maxNesting →
      outcome (climbing operator combine (reading parser) associativity first t) =
        t.session.run fun budget =>
          Parser.climb associativity operator combine budget (fun k _ => parser k) first := by
  have enough : maxNesting ≤ t.session.depth + (maxNesting - t.session.depth) := by omega
  constructor
  · obtain ⟨links, e, chained, ended⟩ := exists_links operator keeps t
    obtain ⟨k, left, leftward⟩ :=
      climbLeft_of_links keeps combine chained enough 0 first
    rw [Nat.zero_add] at leftward
    have deep := chained.depth keeps
    rcases ended with stop | ⟨n, err, u, breaks⟩
    case inl =>
      refine .inl ⟨links, e, chained, stop, leftward.trans (climbLeft_of_none stop k _),
        climbRight_of_links_ok keeps combine chained stop enough first, ?_⟩
      rw [Trail.session_released, deep, Nat.add_sub_cancel]
    case inr =>
      refine .inr ⟨links, e, n, err, u, chained, breaks,
        leftward.trans (climbLeft_of_breaks breaks left _),
        climbRight_of_links_error keeps combine chained breaks enough first, ?_, fun restores => ?_⟩
      · rw [Trail.session_released]
      · have entered := breaks.depth restores
        rw [Trail.session_released]
        show _ ∧ u.session.depth - _ = _
        omega
  · intro parser associativity within
    have traces : Traces 0 (maxNesting - t.session.depth)
        (climb associativity operator combine _ (fun _ _ => reading parser) first)
        (Parser.climb associativity operator combine _ (fun k _ => parser k) first) :=
      Traces.climb fun _ _ => Traces.reading parser
    obtain ⟨moves, followed, _⟩ := traces t (Nat.add_sub_cancel' within) (Nat.zero_le _)
    rw [climbing, followed, ← outcome_follow t moves]

/-- A word is an operand, and a minus an operator. -/
def wordOperand : Nat → Parser String := fun _ => do
  let t ← Parser.expectWord .operand
  return t.value.word?.getD ""

def minusOperator (t : Token) : Option Unit := if t = .minus then some () else none

def parenthesize (_ : Unit) (before after : String) : String := "(" ++ before ++ "-" ++ after ++ ")"

/-- `- y - z`, at some depth. -/
def Trail.subtracting (depth : Nat) : Trail :=
  let row := [Token.minus, .word "y", .minus, .word "z"].map (⟨·, .origin⟩)
  ⟨⟨"q", ⟨0, row, .origin, .origin⟩, depth⟩, []⟩

theorem wordOperand_closes (budget : Nat) : (wordOperand budget).Closes :=
  (Parser.Closes.expect _ _).bind fun _ => Parser.Closes.pure _

open Walk in
/-- With two levels left the two operators are grouped to either side. With one level left the
second of them fails, at the limit, and the level of the first is given back by the chain to the
right only. -/
theorem subtracting_groupings :
    (∀ s x v, reading wordOperand s = .ok x v → v.session.depth = s.session.depth) ∧
    (∃ links e, Links minusOperator (reading wordOperand) (.subtracting 126) links e ∧
      groupLeft parenthesize "x" links = "((x-y)-z)" ∧
      groupRight parenthesize "x" links = "(x-(y-z))") ∧
    ∃ err u v,
      climbing minusOperator parenthesize (reading wordOperand) .left "x" (.subtracting 127) =
        .error err u ∧
      climbing minusOperator parenthesize (reading wordOperand) .right "x" (.subtracting 127) =
        .error err v ∧
      u.session.depth = 128 ∧ v.session.depth = 127 ∧ v.session.cursor = u.session.cursor := by
  have keeps : ∀ s x v, reading wordOperand s = .ok x v → v.session.depth = s.session.depth :=
    fun _ _ _ ran => reading_depth_of_ok ran
  have restores : ∀ s f v, reading wordOperand s = .error f v →
      v.session.depth = s.session.depth :=
    fun _ _ _ failed => reading_depth_of_error wordOperand_closes failed
  let chained (associativity : Associativity) (depth : Nat) :=
    climbing minusOperator parenthesize (reading wordOperand) associativity "x" (.subtracting depth)
  refine ⟨keeps, ?_, ?_⟩
  · obtain ⟨result, agree⟩ :=
      climb_groupings minusOperator parenthesize _ keeps (.subtracting 126) "x"
    -- What the chains come to is computed from the parsers that they agree with.
    have leftward : (outcome (chained .left 126)).1 = .ok "((x-y)-z)" :=
      congrArg Prod.fst (agree wordOperand .left (by decide))
    have rightward : (outcome (chained .right 126)).1 = .ok "(x-(y-z))" :=
      congrArg Prod.fst (agree wordOperand .right (by decide))
    obtain ⟨links, e, passed, _, left, right, _⟩ | ⟨_, _, _, _, _, _, _, left, _⟩ := result
    · rw [show chained .left 126 = _ from left] at leftward
      rw [show chained .right 126 = _ from right] at rightward
      exact ⟨links, e, passed, Except.ok.inj leftward, Except.ok.inj rightward⟩
    · rw [show chained .left 126 = _ from left] at leftward
      cases leftward
  · obtain ⟨result, agree⟩ :=
      climb_groupings minusOperator parenthesize _ keeps (.subtracting 127) "x"
    have failed : (outcome (chained .left 127)).1.toOption = none :=
      congrArg (·.1.toOption) (agree wordOperand .left (by decide))
    have entered : (outcome (chained .left 127)).2.depth = 128 :=
      congrArg (·.2.depth) (agree wordOperand .left (by decide))
    obtain ⟨_, _, _, _, left, _⟩ | ⟨links, e, n, err, u, _, _, left, right, place, depths⟩ := result
    · rw [show chained .left 127 = _ from left] at failed
      cases failed
    · rw [show chained .left 127 = _ from left] at entered
      exact ⟨err, u, _, left, right, entered, (depths restores).2, place⟩

end EventQuery
