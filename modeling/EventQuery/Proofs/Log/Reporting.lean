import EventQuery.Log.Journal

/- What work reports, whatever journal it is given. Work reports marks if every journal that
takes all events has events with these marks behind it, so the marks of steps add up. -/

set_option autoImplicit false

namespace EventQuery

/-- How severe an event is, its code and its place. Tags leave these as they are. -/
structure Mark where
  level : Level
  code : Code
  span : Option Span
  deriving DecidableEq

namespace Event

def mark (e : Event) : Mark := ⟨e.level, e.code, e.span⟩

@[simp] theorem mark_adding (e : Event) (entries : List (String × String)) :
    (e.adding entries).mark = e.mark := rfl

end Event

theorem Level.reaches_debug (level : Level) : level.reaches .debug = true := by
  cases level <;> rfl

@[simp] theorem Journal.mark_tag (j : Journal) (e : Event) : (j.tag e).mark = e.mark := by
  unfold Journal.tag
  split
  · split <;> rfl
  · rfl

namespace Logged

variable {ε δ α β : Type} {work : Logged ε α} {result : Except ε α} {marks more : List Mark}

section Steps

variable {next : α → Logged ε β} {handle : ε → Logged ε α} {j k : Journal} {a : α} {e : ε}

theorem bind_of_ok (ran : work j = (.ok a, k)) : (work >>= next) j = next a k := by
  show StateT.bind work (ExceptT.bindCont next) j = _
  rw [StateT.bind, ran]
  rfl

theorem bind_of_error (ran : work j = (.error e, k)) : (work >>= next) j = (.error e, k) := by
  show StateT.bind work (ExceptT.bindCont next) j = _
  rw [StateT.bind, ran]
  rfl

theorem tryCatch_of_ok (ran : work j = (.ok a, k)) :
    (tryCatch work handle : Logged ε α) j = (.ok a, k) := by
  show ExceptT.tryCatch work handle j = _
  unfold ExceptT.tryCatch ExceptT.mk
  simp only [bind, StateT.bind, ran]
  rfl

theorem tryCatch_of_error (ran : work j = (.error e, k)) :
    (tryCatch work handle : Logged ε α) j = handle e k := by
  show ExceptT.tryCatch work handle j = _
  unfold ExceptT.tryCatch ExceptT.mk
  simp only [bind, StateT.bind, ran]

end Steps

/-- From any journal that takes all events, the work comes to the result and has taken events with
the marks. -/
def Emits (work : Logged ε α) (result : Except ε α) (marks : List Mark) : Prop :=
  ∀ j : Journal, j.least = .debug → ∃ events : List Event,
    work j = (result, { j with events := events.reverse ++ j.events }) ∧
      events.map Event.mark = marks

namespace Emits

theorem pure (a : α) : Emits (Pure.pure a : Logged ε α) (.ok a) [] := fun _ _ => ⟨[], rfl, rfl⟩

theorem throw (e : ε) : Emits (throw e : Logged ε α) (.error e) [] := fun _ _ => ⟨[], rfl, rfl⟩

theorem lift (result : Except ε α) : Emits (liftM result : Logged ε α) result [] := by
  cases result <;> exact fun _ _ => ⟨[], rfl, rfl⟩

theorem emit (e : Event) : Emits (Logged.emit e : Logged ε Unit) (.ok ()) [e.mark] := by
  intro j all
  refine ⟨[j.tag e], ?_, by rw [List.map_singleton, Journal.mark_tag]⟩
  rw [Logged.emit, Journal.record, all, if_pos e.level.reaches_debug]
  rfl

/-- What goes on behind a step, in the journal that the step leaves. -/
theorem extend {final : Except ε β} {whole : Logged ε β} {second : Logged ε β}
    (first : Emits work result marks) (goesOn : Emits second final more)
    (splits : ∀ j k, work j = (result, k) → whole j = second k) :
    Emits whole final (marks ++ more) := by
  intro j all
  obtain ⟨events, ran, same⟩ := first j all
  obtain ⟨events', ran', same'⟩ := goesOn { j with events := events.reverse ++ j.events } all
  refine ⟨events ++ events', ?_, by rw [List.map_append, same, same']⟩
  rw [splits j _ ran, ran', List.reverse_append, List.append_assoc]

theorem bind {a : α} {next : α → Logged ε β} {final : Except ε β} (first : Emits work (.ok a) marks)
    (second : Emits (next a) final more) : Emits (work >>= next) final (marks ++ more) :=
  first.extend second fun _ _ => bind_of_ok

/-- A step that fails ends the work. -/
theorem bind_error {e : ε} {next : α → Logged ε β} (first : Emits work (.error e) marks) :
    Emits (work >>= next) (.error e) marks := by
  intro j all
  obtain ⟨events, ran, same⟩ := first j all
  exact ⟨events, bind_of_error ran, same⟩

theorem tryCatch_ok {a : α} (handle : ε → Logged ε α) (emits : Emits work (.ok a) marks) :
    Emits (tryCatch work handle) (.ok a) marks := by
  intro j all
  obtain ⟨events, ran, same⟩ := emits j all
  exact ⟨events, tryCatch_of_ok ran, same⟩

theorem tryCatch_error {e : ε} {handle : ε → Logged ε α} {final : Except ε α}
    (emits : Emits work (.error e) marks) (handled : Emits (handle e) final more) :
    Emits (tryCatch work handle) final (marks ++ more) :=
  emits.extend handled fun _ _ => tryCatch_of_error

theorem mapFault (f : ε → δ) (emits : Emits work result marks) :
    Emits (work.mapFault f) (result.mapError f) marks := by
  intro j all
  obtain ⟨events, ran, same⟩ := emits j all
  exact ⟨events, by rw [Logged.mapFault, ran], same⟩

theorem within (file : FileContext) (emits : Emits work result marks) :
    Emits (Logged.within file work) result marks := by
  intro j all
  obtain ⟨events, ran, same⟩ := emits { j with file := some file } all
  exact ⟨events, by rw [Logged.within, ran], same⟩

/-- A row of events, one for each item. -/
theorem emitAll (report : β → Event) (items : List β) :
    Emits (forIn items PUnit.unit fun item _ => do
        Logged.emit (report item)
        Pure.pure (ForInStep.yield PUnit.unit) : Logged ε PUnit)
      (.ok ⟨⟩) (items.map fun item => (report item).mark) := by
  induction items with
  | nil => exact pure PUnit.unit
  | cons item rest ih =>
    have step : Emits (do
        Logged.emit (report item)
        Pure.pure (ForInStep.yield PUnit.unit) : Logged ε (ForInStep PUnit))
        (.ok (.yield ⟨⟩)) [(report item).mark] := (emit (report item)).bind (pure _)
    rw [List.forIn_cons, List.map_cons, ← List.singleton_append]
    exact step.bind ih

end Emits

end Logged

end EventQuery
