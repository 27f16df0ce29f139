import Mathlib.Data.List.Forall2
import EventQuery.Proofs.Binding.Summary
import EventQuery.Proofs.Log.Reporting

set_option autoImplicit false

namespace EventQuery

namespace Context

/-- Each name has one value. -/
def Ordered (context : Context) : Prop := (context.map Prod.fst).Pairwise (· < ·)

theorem lookup_cons (name key value : String) (rest : Context) :
    List.lookup name ((key, value) :: rest) =
      if name = key then some value else rest.lookup name := by
  by_cases same : name = key
  · rw [if_pos same, same, List.lookup_cons_self]
  · rw [if_neg same, List.lookup_cons, beq_false_of_ne same]

theorem lookup_put (key value name : String) (context : Context) :
    (put key value context).lookup name =
      if name = key then some value else context.lookup name := by
  induction context with
  | nil => exact lookup_cons name key value []
  | cons entry rest ih =>
    obtain ⟨k, v⟩ := entry
    unfold put
    split
    · rename_i replaced
      rw [lookup_cons, lookup_cons, ← replaced]
      split <;> rfl
    · rename_i other
      split
      · rw [lookup_cons]
      · rw [lookup_cons, lookup_cons, ih]
        by_cases first : name = k
        · have apart : name ≠ key := fun same => other (same.symm.trans first)
          rw [if_pos first, if_neg apart, if_pos first]
        · rw [if_neg first, if_neg first]

theorem names_put (key value : String) (context : Context) :
    (put key value context).map Prod.fst = Binding.insertText key (context.map Prod.fst) := by
  induction context with
  | nil => rfl
  | cons entry rest ih =>
    rw [put, List.map_cons, Binding.insertText]
    split
    · rename_i replaced
      rw [List.map_cons, replaced]
    · split
      · rfl
      · rw [List.map_cons, ih]

theorem Ordered.putAll {context : Context} (ordered : context.Ordered)
    (entries : List (String × String)) : (context.putAll entries).Ordered := by
  induction entries generalizing context with
  | nil => exact ordered
  | cons entry rest ih =>
    have first : (put entry.1 entry.2 context).Ordered := by
      rw [Ordered, names_put]
      exact Binding.pairwise_insertText ordered
    exact ih first

end Context

namespace Event

theorem ordered_adding {e : Event} (bare : e.context = []) (entries : List (String × String)) :
    (e.adding entries).context.Ordered := by
  have none : e.context.Ordered := bare ▸ List.Pairwise.nil
  exact none.putAll entries

/-- An event as it is taken under a file. The file is among its named values, even where the event
had other values of these names, and the event has not changed otherwise. -/
structure CarriesFile (file : FileContext) (raised taken : Event) : Prop where
  path : taken.context.lookup "file" = some file.path
  id : taken.context.lookup "file_id" = some (toString file.id)
  others : ∀ name, name ≠ "file" → name ≠ "file_id" →
    taken.context.lookup name = raised.context.lookup name
  ordered : taken.context.Ordered
  same : { taken with context := raised.context } = raised

theorem carriesFile_adding {e : Event} (ordered : e.context.Ordered) (file : FileContext) :
    CarriesFile file e (e.adding [("file", file.path), ("file_id", toString file.id)]) := by
  have lookup (name : String) :
      (e.adding [("file", file.path), ("file_id", toString file.id)]).context.lookup name =
        if name = "file_id" then some (toString file.id)
        else if name = "file" then some file.path
        else e.context.lookup name := by
    show (Context.put _ _ (Context.put _ _ e.context)).lookup name = _
    rw [Context.lookup_put, Context.lookup_put]
  refine ⟨?_, ?_, fun name path id => ?_, ordered.putAll _, rfl⟩
  · rw [lookup, if_neg (by decide), if_pos rfl]
  · rw [lookup, if_pos rfl]
  · rw [lookup, if_neg id, if_neg path]

/-- The path that the event has gives way to the one that the file was given by. -/
example : ((Event.success .fileLoaded "File processed successfully").adding
    [("file", "/queries/q.cepl"), ("lines", "2")] |>.adding
    [("file", "q.cepl"), ("file_id", "0")]).context =
      [("file", "q.cepl"), ("file_id", "0"), ("lines", "2")] := by decide

end Event

namespace Journal

/-- Takes events one after another. -/
def recordAll (events : List Event) (j : Journal) : Journal := events.foldl record j

/-- Of the events raised, those that are severe enough are taken, with their tags. -/
theorem recordAll_eq (raised : List Event) (j : Journal) :
    j.recordAll raised =
      { j with
        events :=
          ((raised.filter (·.level.reaches j.least)).map j.tag).reverse ++ j.events } := by
  induction raised generalizing j with
  | nil => rfl
  | cons e rest ih =>
    show (j.record e).recordAll rest = _
    rw [ih, record]
    by_cases taken : e.level.reaches j.least = true
    · rw [if_pos taken, List.filter_cons, if_pos taken, List.map_cons, List.reverse_cons,
        List.append_assoc]
      rfl
    · rw [if_neg taken, List.filter_cons, if_neg taken]

end Journal

namespace Logged

variable {ε δ α β : Type}

/-- Whatever journal it is given, the work comes to one result and raises the same events, and it
does nothing else to the journal. -/
def Steady (work : Logged ε α) : Prop :=
  ∃ (result : Except ε α) (raised : List Event), (∀ e ∈ raised, e.context.Ordered) ∧
    ∀ j, work j = (result, j.recordAll raised)

namespace Steady

variable {work : Logged ε α}

theorem pure (a : α) : Steady (Pure.pure a : Logged ε α) :=
  ⟨.ok a, [], fun _ none => (nomatch none), fun _ => rfl⟩

theorem throw (e : ε) : Steady (throw e : Logged ε α) :=
  ⟨.error e, [], fun _ none => (nomatch none), fun _ => rfl⟩

theorem lift (result : Except ε α) : Steady (liftM result : Logged ε α) := by
  cases result with
  | ok a => exact .pure a
  | error e => exact .throw e

theorem emit {e : Event} (ordered : e.context.Ordered) :
    Steady (Logged.emit e : Logged ε Unit) := by
  refine ⟨.ok (), [e], fun e' member => ?_, fun _ => rfl⟩
  rw [List.mem_singleton.mp member]
  exact ordered

/-- What goes on behind steady work, whatever that comes to. -/
theorem extend {whole : Logged ε β} (steady : Steady work) (next : Except ε α → Logged ε β)
    (goesOn : ∀ result, Steady (next result))
    (splits : ∀ result j k, work j = (result, k) → whole j = next result k) : Steady whole := by
  obtain ⟨result, raised, ordered, ran⟩ := steady
  obtain ⟨final, more, ordered', ran'⟩ := goesOn result
  refine ⟨final, raised ++ more, fun e member => ?_, fun j => ?_⟩
  · exact (List.mem_append.mp member).elim (ordered e) (ordered' e)
  · rw [splits result j _ (ran j), ran', Journal.recordAll, Journal.recordAll, Journal.recordAll,
      List.foldl_append]

theorem bind {next : α → Logged ε β} (steady : Steady work) (goesOn : ∀ a, Steady (next a)) :
    Steady (work >>= next) := by
  refine steady.extend (fun | .ok a => next a | .error e => throwThe ε e) ?_ ?_
  · rintro (e | a)
    · exact .throw e
    · exact goesOn a
  · rintro (e | a) j k ran
    · exact bind_of_error ran
    · exact bind_of_ok ran

theorem tryCatch {handle : ε → Logged ε α} (steady : Steady work)
    (handled : ∀ e, Steady (handle e)) : Steady (tryCatch work handle) := by
  refine steady.extend (fun | .ok a => Pure.pure a | .error e => handle e) ?_ ?_
  · rintro (e | a)
    · exact handled e
    · exact .pure a
  · rintro (e | a) j k ran
    · exact tryCatch_of_error ran
    · exact tryCatch_of_ok ran

/-- An event before other work. -/
theorem after {e : Event} (ordered : e.context.Ordered) (steady : Steady work) :
    Steady (do Logged.emit e; work) := (emit ordered).bind fun _ => steady

theorem mapFault (f : ε → δ) (steady : Steady work) : Steady (work.mapFault f) := by
  obtain ⟨result, raised, ordered, ran⟩ := steady
  exact ⟨result.mapError f, raised, ordered, fun j => by rw [Logged.mapFault, ran]⟩

theorem emitAll (report : β → Event) (ordered : ∀ item, (report item).context.Ordered)
    (items : List β) :
    Steady (forIn items PUnit.unit fun item _ => do
      Logged.emit (report item)
      Pure.pure (ForInStep.yield PUnit.unit) : Logged ε PUnit) := by
  induction items with
  | nil => exact pure PUnit.unit
  | cons item rest ih =>
    rw [List.forIn_cons]
    exact (after (ordered item) (pure _)).bind fun
      | .done _ => .pure _
      | .yield _ => ih

end Steady

/-- Steady work under a file. It raises the same events in a journal with tags and in one without,
and comes to the same result. With tags, each event carries the file. Afterwards the journal has its
own file again. -/
theorem Steady.within {work : Logged ε α} (steady : Steady work) (file : FileContext)
    (j : Journal) : ∃ (result : Except ε α) (raised taken : List Event),
      Logged.within file work { j with tagsFiles := false } =
        (result, { j with tagsFiles := false, events := raised.reverse ++ j.events }) ∧
      Logged.within file work { j with tagsFiles := true } =
        (result, { j with tagsFiles := true, events := taken.reverse ++ j.events }) ∧
      List.Forall₂ (Event.CarriesFile file) raised taken := by
  obtain ⟨result, raised, ordered, ran⟩ := steady
  let kept := raised.filter (·.level.reaches j.least)
  refine ⟨result, kept, kept.map (·.adding [("file", file.path), ("file_id", toString file.id)]),
    ?plain, ?tagged, ?carried⟩
  case plain =>
    rw [Logged.within, ran, Journal.recordAll_eq]
    show (result, { j with tagsFiles := false, events := (kept.map id).reverse ++ j.events }) = _
    rw [List.map_id]
  case tagged =>
    rw [Logged.within, ran, Journal.recordAll_eq]
    rfl
  case carried =>
    rw [List.forall₂_map_right_iff, List.forall₂_same]
    exact fun e member => Event.carriesFile_adding (ordered e (List.mem_of_mem_filter member)) file

end Logged

end EventQuery
