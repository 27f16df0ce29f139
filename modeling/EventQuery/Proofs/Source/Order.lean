import EventQuery.Proofs.Source.Place

set_option autoImplicit false

namespace EventQuery

namespace Position

/-- `p` is `q` or lies before it, as places of one text: those with the same offset are the same. -/
def NoLater (p q : Position) : Prop := p = q ∨ p.offset < q.offset

namespace NoLater

variable {p q r : Position}

theorem refl (p : Position) : p.NoLater p := .inl rfl

theorem trans (first : p.NoLater q) (second : q.NoLater r) : p.NoLater r := by
  rcases first with rfl | before
  · exact second
  · rcases second with rfl | behind
    · exact .inr before
    · exact .inr (Nat.lt_trans before behind)

theorem offset_le (order : p.NoLater q) : p.offset ≤ q.offset := by
  rcases order with rfl | before
  · exact Nat.le_refl _
  · exact Nat.le_of_lt before

theorem advanceOver (p : Position) (text : List Char) : p.NoLater (p.advanceOver text) := by
  by_cases empty : text = []
  · rw [empty, advanceOver_nil]
    exact refl p
  · have size := byteCount_pos empty
    have behind : p.offset < (p.advanceOver text).offset := by
      rw [offset_advanceOver]
      omega
    exact .inr behind

end NoLater

end Position

/-- Of two ranges in order, the first gives the start and the second the end, even where these have
the same offset. -/
theorem Span.merge_of_noLater {s t : Span} (starts : s.start.NoLater t.start)
    (stops : s.stop.NoLater t.stop) : s.merge t = ⟨s.start, t.stop⟩ := by
  have first : ¬ t.start.offset < s.start.offset := by
    have order := starts.offset_le
    omega
  rw [merge, if_neg first]
  -- Where the offsets of the ends are the same, so are the ends, and either of them will do.
  rcases stops with same | before
  · have tied : ¬ s.stop.offset < t.stop.offset := by
      rw [same]
      omega
    rw [if_neg tied, same]
  · rw [if_pos before]

/-- The ranges lie between `p` and `q`, none of them begins before the one before it has ended. -/
def InOrder (p : Position) : List Span → Position → Prop
  | [], q => p.NoLater q
  | s :: rest, q => p.NoLater s.start ∧ s.start.NoLater s.stop ∧ InOrder s.stop rest q

section

variable {p q r : Position} {s : Span} {spans front back rest : List Span}

theorem InOrder.before (earlier : p.NoLater q) (order : InOrder q spans r) :
    InOrder p spans r := by
  cases spans with
  | nil => exact earlier.trans order
  | cons s rest =>
    obtain ⟨first, proper, later⟩ := order
    exact ⟨earlier.trans first, proper, later⟩

theorem inOrder_append :
    InOrder p (front ++ back) r ↔ ∃ q, InOrder p front q ∧ InOrder q back r := by
  induction front generalizing p with
  | nil =>
    constructor
    · intro order
      exact ⟨p, .refl p, order⟩
    · rintro ⟨q, earlier, order⟩
      exact order.before earlier
  | cons s rest ih =>
    constructor
    · rintro ⟨first, proper, later⟩
      obtain ⟨q, middle, last⟩ := ih.mp later
      exact ⟨q, ⟨first, proper, middle⟩, last⟩
    · rintro ⟨q, ⟨first, proper, middle⟩, last⟩
      exact ⟨first, proper, ih.mpr ⟨q, middle, last⟩⟩

namespace InOrder

theorem noLater (order : InOrder p spans q) : p.NoLater q := by
  induction spans generalizing p with
  | nil => exact order
  | cons s rest ih =>
    obtain ⟨first, proper, later⟩ := order
    exact (first.trans proper).trans (ih later)

theorem sublist (part : List.Sublist front spans) :
    ∀ {p : Position}, InOrder p spans q → InOrder p front q := by
  induction part with
  | slnil => exact id
  | cons s _ ih =>
    intro p order
    obtain ⟨first, proper, later⟩ := order
    exact (ih later).before (first.trans proper)
  | cons_cons s _ ih =>
    intro p order
    obtain ⟨first, proper, later⟩ := order
    exact ⟨first, proper, ih later⟩

theorem mem (order : InOrder p spans q) (member : s ∈ spans) :
    p.NoLater s.start ∧ s.start.NoLater s.stop ∧ s.stop.NoLater q := by
  obtain ⟨front, back, rfl⟩ := List.append_of_mem member
  obtain ⟨m, before, first, proper, behind⟩ := inOrder_append.mp order
  exact ⟨before.noLater.trans first, proper, behind.noLater⟩

theorem pairwise (order : InOrder p spans q) :
    spans.Pairwise fun s t => s.stop.offset ≤ t.start.offset := by
  induction spans generalizing p with
  | nil => exact List.Pairwise.nil
  | cons s rest ih =>
    obtain ⟨_, _, later⟩ := order
    exact List.Pairwise.cons (fun t member => (later.mem member).1.offset_le) (ih later)

/-- Ranges in order lie between the start of the first and the end of the last of them. -/
theorem tight (order : InOrder p (s :: rest) q) :
    p.NoLater s.start ∧ InOrder s.start (s :: rest) (rest.getLastD s).stop ∧
      (rest.getLastD s).stop.NoLater q := by
  induction rest generalizing p s with
  | nil =>
    obtain ⟨first, proper, last⟩ := order
    exact ⟨first, ⟨.refl _, proper, .refl _⟩, last⟩
  | cons t later ih =>
    obtain ⟨first, proper, behind⟩ := order
    obtain ⟨between, inside, last⟩ := ih behind
    rw [List.getLastD_cons]
    exact ⟨first, ⟨.refl _, proper, inside.before between⟩, last⟩

/-- What ranges in order cover is again a range, in their place. -/
theorem whole (order : InOrder p (s :: rest) q) :
    InOrder p [⟨s.start, (rest.getLastD s).stop⟩] q := by
  obtain ⟨first, inside, last⟩ := order.tight
  exact ⟨first, inside.noLater, last⟩

theorem merge_getLastD (order : InOrder p (s :: rest) q) :
    s.merge (rest.getLastD s) = ⟨s.start, (rest.getLastD s).stop⟩ := by
  obtain ⟨_, inside, _⟩ := order.tight
  have starts := (inside.mem List.getLastD_mem_cons).1
  have stops := (inside.mem List.mem_cons_self).2.2
  exact Span.merge_of_noLater starts stops

end InOrder

end

end EventQuery
