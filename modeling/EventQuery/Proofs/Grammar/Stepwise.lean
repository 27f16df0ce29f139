import EventQuery.Grammar.Session
import EventQuery.Proofs.Grammar.Progress

/- Parsing level by level. A walk works on a session: it opens levels of nesting and gives them
back one at a time, and every such move is kept. Parsers know the levels that are left as their
budget instead; what a walk does is what the parser of the same shape does within that budget. -/

set_option autoImplicit false

namespace EventQuery

/-- A change of the depth: a level was opened, which came to the depth, or a level was given back at
that depth. -/
inductive Move where
  | opened (depth : Nat)
  | closed (depth : Nat)
  deriving DecidableEq

/-- No more levels are opened than there may be, and none is given back where none is open. -/
def Move.Sound : Move → Prop
  | opened depth => depth ≤ maxNesting
  | closed depth => 0 < depth

/-- A session and the moves on the way to it, the latest first. -/
structure Trail where
  session : Session
  moves : List Move

/-- A parser that works on a session. Where it fails, it leaves the session as it is then. -/
abbrev Walk := EStateM SyntaxError Trail

namespace Walk

variable {α ω : Type}

/-- The result of a walk with the session that it leaves. -/
def outcome : EStateM.Result SyntaxError Trail α → Except SyntaxError α × Session
  | .ok a t => (.ok a, t.session)
  | .error e t => (.error e, t.session)

/-- The trail that a walk leaves. -/
def trail : EStateM.Result SyntaxError Trail α → Trail
  | .ok _ t => t
  | .error _ t => t

/-- Runs a parser as a single step, in which no move is kept. -/
def reading (parser : Nat → Parser α) : Walk α := fun t =>
  match t.session.run parser with
  | (.ok a, s) => .ok a { t with session := s }
  | (.error e, s) => .error e { t with session := s }

/-- Runs a parser that takes no budget, so that it opens no level. -/
def step (parser : Parser α) : Walk α := reading fun _ => parser

def peek : Walk Token := step Parser.peek

def advance : Walk (Located Token) := step Parser.advance

def fail (expected : Expectation) : Walk α := step (Parser.fail expected)

def expectToken (token : Token) (expected : Expectation) : Walk (Located Token) :=
  step (Parser.expectToken token expected)

def enter : Walk Unit := fun t =>
  match t.session.enter with
  | .ok s => .ok () ⟨s, .opened s.depth :: t.moves⟩
  | .error e => .error e t

def leave : Walk Unit := fun t => .ok () ⟨t.session.leave, .closed t.session.depth :: t.moves⟩

/-- Gives back so many levels. -/
def release : Nat → Walk Unit
  | 0 => pure ()
  | n + 1 => do
    leave
    release n

/-- The budget bounds the recursion. It is as large as the levels that are left, so that `enter`
fails before the budget is used up. -/
def deeper (budget : Nat) (production : (k : Nat) → k < budget → Walk α) : Walk α :=
  match budget, production with
  | 0, _ => fail .shallower
  | k + 1, production => production k (Nat.lt_succ_self k)

/-- Opens a level for a production, and gives it back whether the production ends well or fails. -/
def nested (budget : Nat) (production : (k : Nat) → k < budget → Walk α) : Walk α := do
  enter
  tryFinally (deeper budget production) leave

/-- The loop of a chain that groups to the left. Every operator opens a level, and all levels are
given back behind the chain, those that were opened before among them. -/
def climbLeft (operator : Token → Option ω) (combine : ω → α → α → α) (budget : Nat)
    (operand : (k : Nat) → k < budget → Walk α) (levels : Nat) (first : α) : Walk α := do
  match operator (← peek) with
  | none =>
    release levels
    return first
  | some op =>
    enter
    deeper budget fun k below => do
      let _ ← advance
      let next ← operand k below
      climbLeft operator combine k (fun j less => operand j (Nat.lt_trans less below)) (levels + 1)
        (combine op first next)
termination_by budget

/-- Every operator of a chain that groups to the right opens a level for the chain behind it. -/
def climbRight (operator : Token → Option ω) (combine : ω → α → α → α) (budget : Nat)
    (operand : (k : Nat) → k < budget → Walk α) (first : α) : Walk α := do
  match operator (← peek) with
  | none => return first
  | some op =>
    let rest ← nested budget fun k below => do
      let _ ← advance
      let next ← operand k below
      climbRight operator combine k (fun j less => operand j (Nat.lt_trans less below)) next
    return combine op first rest
termination_by budget

def climb (associativity : Associativity) (operator : Token → Option ω) (combine : ω → α → α → α)
    (budget : Nat) (operand : (k : Nat) → k < budget → Walk α) (first : α) : Walk α :=
  match associativity with
  | .left => climbLeft operator combine budget operand 0 first
  | .right => climbRight operator combine budget operand first

end Walk

namespace Trail

/-- The trail at another cursor and depth, with moves made since. -/
def moved (t : Trail) (cursor : Cursor) (depth : Nat) (moves : List Move) : Trail :=
  ⟨{ t.session with cursor, depth }, moves ++ t.moves⟩

/-- The trail with one more level open. -/
def deepened (t : Trail) : Trail :=
  t.moved t.session.cursor (t.session.depth + 1) [.opened (t.session.depth + 1)]

/-- What a walk comes to from a trail when the parser of its shape has run from there and `released`
levels are given back behind it. -/
def follow {α : Type} (t : Trail) (released : Nat) (moves : List Move) :
    Except Failure (α × Cursor) → EStateM.Result SyntaxError Trail α
  | .ok (a, c) => .ok a (t.moved c (t.session.depth - released) moves)
  | .error f =>
    .error ⟨t.session.sourceName, f.fault, f.cursor.current⟩
      (t.moved f.cursor (t.session.depth + f.opened) moves)

/-- The trail with so many levels given back. -/
def released : Nat → Trail → Trail
  | 0, t => t
  | n + 1, t => released n ⟨t.session.leave, .closed t.session.depth :: t.moves⟩

end Trail

namespace Walk

variable {α β ω : Type} {t : Trail}

theorem bind_of_ok {w : Walk α} {a : α} {u : Trail} (ran : w t = .ok a u) (v : α → Walk β) :
    (w >>= v) t = v a u := by
  show EStateM.bind w v t = _
  rw [EStateM.bind, ran]

theorem bind_of_error {w : Walk α} {e : SyntaxError} {u : Trail} (ran : w t = .error e u)
    (v : α → Walk β) : (w >>= v) t = .error e u := by
  show EStateM.bind w v t = _
  rw [EStateM.bind, ran]

theorem reading_eq (parser : Nat → Parser α) (t : Trail) :
    reading parser t = t.follow 0 [] (parser (maxNesting - t.session.depth) t.session.cursor) := by
  rw [reading, Session.run]
  cases parser (maxNesting - t.session.depth) t.session.cursor <;> rfl

theorem reading_depth_of_ok {parser : Nat → Parser α} {a : α} {u : Trail}
    (ran : reading parser t = .ok a u) : u.session.depth = t.session.depth := by
  rw [reading_eq] at ran
  cases went : parser (maxNesting - t.session.depth) t.session.cursor with
  | ok result =>
    rw [went] at ran
    cases ran
    rfl
  | error f =>
    rw [went] at ran
    cases ran

theorem peek_run : peek t = .ok t.session.cursor.current.value t := rfl

theorem enter_of_room (room : t.session.depth < maxNesting) :
    enter t = .ok () t.deepened := by
  rw [enter, Session.enter, if_neg (Nat.not_le_of_lt room)]
  rfl

theorem enter_of_full (full : maxNesting ≤ t.session.depth) :
    enter t =
      .error ⟨t.session.sourceName, .unexpected .shallower, t.session.cursor.current⟩ t := by
  rw [enter, Session.enter, if_pos full]

theorem finally_of_ok {w : Walk α} {a : α} {u : Trail} (ran : w t = .ok a u) :
    tryFinally w leave t = .ok a (u.released 1) := by
  simp only [tryFinally, tryFinally', Functor.map, EStateM.map, ran]
  rfl

theorem finally_of_error {w : Walk α} {e : SyntaxError} {u : Trail} (ran : w t = .error e u) :
    tryFinally w leave t = .error e (u.released 1) := by
  simp only [tryFinally, tryFinally', Functor.map, EStateM.map, ran]
  rfl

theorem release_run (n : Nat) : ∀ t, release n t = .ok () (t.released n) := by
  induction n with
  | zero => exact fun _ => rfl
  | succ n ih => exact fun t => ih _

end Walk

namespace Trail

variable {α : Type}

theorem released_succ (n : Nat) (t : Trail) :
    t.released (n + 1) = released n ⟨t.session.leave, .closed t.session.depth :: t.moves⟩ := rfl

theorem released_released (n : Nat) :
    ∀ t : Trail, (t.released n).released 1 = t.released (n + 1) := by
  induction n with
  | zero => exact fun _ => rfl
  | succ n ih => exact fun t => ih _

/-- Giving back levels changes the depth and nothing else. The moves are sound where the levels are
open. -/
theorem released_eq (n : Nat) : ∀ t : Trail,
    ∃ moves, t.released n = t.moved t.session.cursor (t.session.depth - n) moves ∧
      (n ≤ t.session.depth → ∀ m ∈ moves, m.Sound) := by
  induction n with
  | zero => exact fun t => ⟨[], rfl, fun _ _ absent => by cases absent⟩
  | succ n ih =>
    intro t
    obtain ⟨moves, later, sound⟩ := ih ⟨t.session.leave, .closed t.session.depth :: t.moves⟩
    refine ⟨moves ++ [.closed t.session.depth], ?_, fun enough => ?_⟩
    · rw [released_succ, later]
      simp [moved, Session.leave, Nat.sub_sub, Nat.add_comm]
    · have fewer : n ≤ t.session.depth - 1 := by omega
      simp only [List.forall_mem_append, List.forall_mem_singleton]
      exact ⟨sound fewer, Nat.lt_of_lt_of_le (Nat.succ_pos n) enough⟩

theorem session_released (n : Nat) (t : Trail) :
    (t.released n).session = { t.session with depth := t.session.depth - n } := by
  obtain ⟨moves, back, _⟩ := t.released_eq n
  rw [back]
  rfl

/-- To follow a parser from where the trail has come to is to follow it from the trail. -/
theorem follow_moved (t : Trail) (c : Cursor) (released : Nat) (moves later : List Move)
    (ran : Except Failure (α × Cursor)) :
    (t.moved c t.session.depth moves).follow released later ran =
      t.follow released (later ++ moves) ran := by
  cases ran <;> simp [follow, moved]

end Trail

namespace Walk

variable {α : Type}

theorem outcome_follow (t : Trail) (moves : List Move) {parser : Nat → Parser α} :
    outcome (t.follow 0 moves (parser (maxNesting - t.session.depth) t.session.cursor)) =
      t.session.run parser := by
  rw [Session.run]
  cases parser (maxNesting - t.session.depth) t.session.cursor <;> rfl

theorem moves_follow (t : Trail) (released : Nat) (moves : List Move)
    (ran : Except Failure (α × Cursor)) :
    (trail (t.follow released moves ran)).moves = moves ++ t.moves := by
  cases ran <;> rfl

end Walk

/-- Behind an operator, a chain that groups to the right is read one level deeper. -/
theorem Parser.climbRight_nested {α ω : Type} (operator : Token → Option ω)
    (combine : ω → α → α → α) (budget : Nat) (operand : (k : Nat) → k < budget → Parser α)
    (first : α) :
    climbRight operator combine budget operand first = (do
      match operator (← peek) with
      | none => return first
      | some op =>
        let rest ← nested budget fun k below => do
          let _ ← advance
          let next ← operand k below
          climbRight operator combine k (fun j less => operand j (Nat.lt_trans less below)) next
        return combine op first rest) := by
  cases budget with
  | zero => rfl
  | succ k =>
    rw [climbRight]
    congr 1
    funext token
    cases operator token with
    | none => rfl
    | some op => simp only [nested, bind_assoc]

namespace Parser

variable {α β ω : Type} {p : Parser α}

/-- Where the parser fails, no level is left open. -/
def Closes (p : Parser α) : Prop := ∀ c f, p c = .error f → f.opened = 0

theorem Reads.closes {phrase : List (Located Token) → α → Prop} {before : Token → Prop}
    (reads : ∀ c, p.Reads c phrase before) : p.Closes :=
  fun c _ failed => ((reads c).error failed).closed

namespace Closes

theorem pure (a : α) : Closes (Pure.pure a : Parser α) := fun _ _ failed => nomatch failed

theorem peek : Closes Parser.peek := fun _ _ failed => nomatch failed

theorem fail (expected : Expectation) : Closes (Parser.fail expected : Parser α) := by
  intro c f failed
  cases failed
  rfl

theorem advance : Closes Parser.advance := by
  intro c f failed
  unfold Parser.advance at failed
  split at failed
  · cases failed
  · cases failed
    rfl

theorem bind {q : α → Parser β} (first : p.Closes) (second : ∀ a, (q a).Closes) :
    Closes (p >>= q) := by
  intro c f failed
  cases ran : p c with
  | error g =>
    rw [bind_of_error ran] at failed
    cases failed
    exact first c _ ran
  | ok result =>
    rw [bind_of_ok ran] at failed
    exact second result.1 result.2 f failed

theorem expect (accepted : Token → Bool) (expected : Expectation) :
    Closes (Parser.expect accepted expected) := by
  apply peek.bind
  intro token
  split
  · exact advance
  · exact fail expected

theorem nested {budget : Nat} {production : (k : Nat) → k < budget → Parser α}
    (deeper : ∀ k below, (production k below).Closes) :
    Closes (Parser.nested budget production) := by
  cases budget with
  | zero => exact fail .shallower
  | succ k => exact deeper k (Nat.lt_succ_self k)

theorem climbRight {operator : Token → Option ω} {combine : ω → α → α → α} {budget : Nat} :
    ∀ {operand : (k : Nat) → k < budget → Parser α} {first : α},
      (∀ k below, (operand k below).Closes) →
      Closes (Parser.climbRight operator combine budget operand first) := by
  induction budget using Nat.strongRecOn with
  | ind budget deeper =>
    intro operand first operands
    rw [climbRight_nested]
    apply peek.bind
    intro token
    cases operator token with
    | none => exact pure first
    | some op =>
      refine bind (nested fun k below => ?_) fun rest => pure (combine op first rest)
      apply advance.bind
      intro _
      apply (operands k below).bind
      intro next
      exact deeper k below fun j less => operands j (Nat.lt_trans less below)

end Closes

end Parser

theorem Session.run_depth {α : Type} {parser : Nat → Parser α}
    (closes : ∀ budget, (parser budget).Closes) (s : Session) :
    (s.run parser).2.depth = s.depth := by
  rw [Session.run]
  split
  · rfl
  · rename_i f failed
    show s.depth + f.opened = s.depth
    rw [closes _ _ f failed, Nat.add_zero]

theorem Walk.reading_depth_of_error {α : Type} {parser : Nat → Parser α} {t u : Trail}
    {err : SyntaxError} (closes : ∀ budget, (parser budget).Closes)
    (failed : reading parser t = .error err u) : u.session.depth = t.session.depth := by
  have kept := Session.run_depth closes t.session
  unfold reading at failed
  split at failed
  · cases failed
  · rename_i went
    rw [went] at kept
    cases failed
    exact kept

namespace Walk

variable {α β ω : Type}

/-- Where the budget is as large as the levels that are left, the walk does what the parser does and
gives back so many levels behind it, by moves that are sound. -/
def Traces (released budget : Nat) (w : Walk α) (p : Parser α) : Prop :=
  ∀ t : Trail, t.session.depth + budget = maxNesting → released ≤ t.session.depth →
    ∃ moves, w t = t.follow released moves (p t.session.cursor) ∧ ∀ m ∈ moves, m.Sound

namespace Traces

variable {released budget : Nat}

theorem reading (parser : Nat → Parser α) :
    Traces 0 budget (Walk.reading parser) (parser budget) := by
  intro t left _
  refine ⟨[], ?_, fun _ absent => by cases absent⟩
  rw [reading_eq, show maxNesting - t.session.depth = budget by omega]

theorem step (parser : Parser α) : Traces 0 budget (Walk.step parser) parser :=
  reading fun _ => parser

theorem pure (a : α) : Traces 0 budget (Pure.pure a : Walk α) (Pure.pure a) :=
  fun _ _ _ => ⟨[], rfl, fun _ absent => by cases absent⟩

theorem bind {w : Walk α} {p : Parser α} {v : α → Walk β} {q : α → Parser β}
    (first : Traces 0 budget w p) (second : ∀ a, Traces released budget (v a) (q a)) :
    Traces released budget (w >>= v) (p >>= q) := by
  intro t left enough
  obtain ⟨moves, followed, sound⟩ := first t left (Nat.zero_le _)
  cases ran : p t.session.cursor with
  | error f =>
    rw [ran] at followed
    refine ⟨moves, ?_, sound⟩
    rw [Parser.bind_of_error ran]
    exact bind_of_error followed v
  | ok result =>
    obtain ⟨a, c⟩ := result
    rw [ran] at followed
    obtain ⟨later, onward, sound'⟩ := second a (t.moved c t.session.depth moves) left enough
    refine ⟨later ++ moves, ?_, List.forall_mem_append.mpr ⟨sound', sound⟩⟩
    rw [Parser.bind_of_ok ran, ← Trail.follow_moved t c]
    exact (bind_of_ok followed v).trans onward

theorem nested {production : (k : Nat) → k < budget → Walk α}
    {production' : (k : Nat) → k < budget → Parser α}
    (deeper : ∀ k below, Traces 0 k (production k below) (production' k below)) :
    Traces 0 budget (Walk.nested budget production) (Parser.nested budget production') := by
  intro t left _
  cases budget with
  | zero =>
    refine ⟨[], ?_, fun _ absent => by cases absent⟩
    exact bind_of_error (enter_of_full (Nat.le_of_eq left.symm)) _
  | succ k =>
    have room : t.session.depth < maxNesting := by omega
    have within : t.deepened.session.depth + k = maxNesting := by
      show t.session.depth + 1 + k = maxNesting
      omega
    obtain ⟨moves, followed, sound⟩ :=
      deeper k (Nat.lt_succ_self k) t.deepened within (Nat.zero_le _)
    have opened : Walk.nested (k + 1) production t =
        tryFinally (production k (Nat.lt_succ_self k)) leave t.deepened :=
      bind_of_ok (enter_of_room room) _
    have room_sound : (Move.opened (t.session.depth + 1)).Sound := room
    cases ran : production' k (Nat.lt_succ_self k) t.session.cursor with
    | ok result =>
      obtain ⟨a, c⟩ := result
      rw [show t.deepened.session.cursor = t.session.cursor from rfl, ran] at followed
      refine ⟨.closed (t.session.depth + 1) :: (moves ++ [.opened (t.session.depth + 1)]), ?_, ?_⟩
      · rw [opened, finally_of_ok followed, Parser.nested, ran]
        simp [Trail.deepened, Trail.follow, Trail.moved, Trail.released, Session.leave]
      · simp only [List.forall_mem_cons, List.forall_mem_append]
        exact ⟨Nat.succ_pos _, sound, room_sound, fun _ absent => by cases absent⟩
    | error f =>
      rw [show t.deepened.session.cursor = t.session.cursor from rfl, ran] at followed
      refine ⟨.closed (t.session.depth + 1 + f.opened) ::
        (moves ++ [.opened (t.session.depth + 1)]), ?_, ?_⟩
      · rw [opened, finally_of_error followed, Parser.nested, ran]
        simp [Trail.deepened, Trail.follow, Trail.moved, Trail.released, Session.leave,
          Nat.add_right_comm]
      · simp only [List.forall_mem_cons, List.forall_mem_append]
        exact ⟨Nat.lt_add_right f.opened (Nat.succ_pos t.session.depth), sound, room_sound,
          fun _ absent => by cases absent⟩

variable {operator : Token → Option ω} {combine : ω → α → α → α}

theorem climbRight {budget : Nat} :
    ∀ {operand : (k : Nat) → k < budget → Walk α} {operand' : (k : Nat) → k < budget → Parser α}
      {first : α}, (∀ k below, Traces 0 k (operand k below) (operand' k below)) →
      Traces 0 budget (Walk.climbRight operator combine budget operand first)
        (Parser.climbRight operator combine budget operand' first) := by
  induction budget using Nat.strongRecOn with
  | ind budget deeper =>
    intro operand operand' first operands
    rw [Walk.climbRight, Parser.climbRight_nested]
    apply (step Parser.peek).bind
    intro token
    split
    · exact pure first
    · rename_i op _
      refine bind (nested fun k below => ?_) fun rest => pure (combine op first rest)
      apply (step Parser.advance).bind
      intro _
      apply (operands k below).bind
      intro next
      exact deeper k below fun j less => operands j (Nat.lt_trans less below)

theorem release (a : α) :
    Traces released budget (do Walk.release released; return a) (Pure.pure a) := by
  intro t _ enough
  obtain ⟨moves, back, sound⟩ := t.released_eq released
  refine ⟨moves, ?_, sound enough⟩
  rw [bind_of_ok (release_run released t), back]
  rfl

theorem enter_of_none (w : Walk α) :
    Traces released 0 (do enter; w) (Parser.fail .shallower) := by
  intro t left _
  have full : maxNesting ≤ t.session.depth := Nat.le_of_eq left.symm
  exact ⟨[], bind_of_error (enter_of_full full) _, fun _ absent => by cases absent⟩

/-- A level that stays open where the parser fails is one more to be given back where it ends
well. -/
theorem keepingOpen {k : Nat} {w : Walk α} {p : Parser α} (inner : Traces (released + 1) k w p) :
    Traces released (k + 1) (do enter; w) (Parser.keepingOpen p) := by
  intro t left enough
  have room : t.session.depth < maxNesting := by omega
  have within : t.deepened.session.depth + k = maxNesting := by
    show t.session.depth + 1 + k = maxNesting
    omega
  obtain ⟨moves, followed, sound⟩ := inner t.deepened within (Nat.succ_le_succ enough)
  refine ⟨moves ++ [.opened (t.session.depth + 1)], ?_, ?_⟩
  · rw [bind_of_ok (enter_of_room room), followed,
      show t.deepened.session.cursor = t.session.cursor from rfl]
    cases ran : p t.session.cursor with
    | ok result =>
      rw [Parser.keepingOpen_of_ok ran]
      simp [Trail.deepened, Trail.follow, Trail.moved, Nat.add_sub_add_right]
    | error f =>
      rw [Parser.keepingOpen_of_error ran]
      simp [Trail.deepened, Trail.follow, Trail.moved, Nat.add_right_comm, Nat.add_assoc]
  · have room_sound : (Move.opened (t.session.depth + 1)).Sound := room
    simp only [List.forall_mem_append, List.forall_mem_singleton]
    exact ⟨sound, room_sound⟩

theorem climbLeft {budget : Nat} :
    ∀ {operand : (k : Nat) → k < budget → Walk α} {operand' : (k : Nat) → k < budget → Parser α}
      {released : Nat} {first : α}, (∀ k below, Traces 0 k (operand k below) (operand' k below)) →
      Traces released budget (Walk.climbLeft operator combine budget operand released first)
        (Parser.climbLeft operator combine budget operand' first) := by
  induction budget with
  | zero =>
    intro operand operand' released first _
    rw [Walk.climbLeft, Parser.climbLeft]
    apply (step Parser.peek).bind
    intro token
    cases operator token with
    | none => exact release first
    | some op => exact enter_of_none _
  | succ k ih =>
    intro operand operand' released first operands
    rw [Walk.climbLeft, Parser.climbLeft]
    apply (step Parser.peek).bind
    intro token
    cases operator token with
    | none => exact release first
    | some op =>
      apply keepingOpen
      apply (step Parser.advance).bind
      intro _
      apply (operands k (Nat.lt_succ_self k)).bind
      intro next
      exact ih fun j below => operands j (Nat.lt_succ_of_lt below)

theorem climb {associativity : Associativity} {budget : Nat}
    {operand : (k : Nat) → k < budget → Walk α} {operand' : (k : Nat) → k < budget → Parser α}
    {first : α} (operands : ∀ k below, Traces 0 k (operand k below) (operand' k below)) :
    Traces 0 budget (Walk.climb associativity operator combine budget operand first)
      (Parser.climb associativity operator combine budget operand' first) := by
  cases associativity with
  | left => exact climbLeft operands
  | right => exact climbRight operands

end Traces

end Walk

end EventQuery
