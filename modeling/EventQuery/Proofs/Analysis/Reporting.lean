import EventQuery.Analysis.Report
import EventQuery.Proofs.Binding.Rebinding
import EventQuery.Proofs.Grammar.Trailing
import EventQuery.Proofs.Log.Reporting

/- What the stages of an analysis report. A stage that fails ends its log with the mark of its
fault, and input behind a complete query makes it do so twice; what a stage reports before that
is calm. -/

set_option autoImplicit false

namespace EventQuery

namespace Mark

/-- The mark of a variable that is bound to a further relation. -/
def rebinding : Mark := ⟨.warning, .reboundVariable, none⟩

def isRebinding (m : Mark) : Bool := m.level = .warning && m.code = .reboundVariable

def completed : Mark := ⟨.info, .completed, none⟩

def fault (code : Code) (span : Option Span) : Mark := ⟨.error, code, span⟩

/-- Neither a fault nor the end of an analysis. -/
def isCalm (m : Mark) : Bool := m.level ≠ .error && m.code ≠ .completed

def isPlain (m : Mark) : Bool := m.isCalm && !m.isRebinding

end Mark

namespace Logged

variable {ε δ α β : Type} {work : Logged ε α} {result : Except ε α} {ending : List Mark}
  {n m k : Nat}

/-- Up to its ending the work reports so many variables that are bound again, and all is calm. -/
def Reports (work : Logged ε α) (result : Except ε α) (rebindings : Nat) (ending : List Mark) :
    Prop :=
  ∃ calm : List Mark, calm.all Mark.isCalm = true ∧ calm.countP Mark.isRebinding = rebindings ∧
    work.Emits result (calm ++ ending)

namespace Reports

theorem of_emits (emits : Emits work result ending) : Reports work result 0 ending :=
  ⟨[], rfl, rfl, emits⟩

theorem pure (a : α) : Reports (Pure.pure a : Logged ε α) (.ok a) 0 [] := of_emits (.pure a)

theorem lift (result : Except ε α) : Reports (liftM result : Logged ε α) result 0 [] :=
  of_emits (.lift result)

/-- The report of a fault, and the fault. -/
theorem fault (event : Event) (e : ε) :
    Reports (do Logged.emit event; throw e : Logged ε α) (.error e) 0 [event.mark] :=
  of_emits ((Emits.emit event).bind (.throw e))

theorem bind {a : α} {next : α → Logged ε β} {final : Except ε β}
    (first : Reports work (.ok a) n []) (second : Reports (next a) final m ending)
    (sum : n + m = k) :
    Reports (work >>= next) final k ending := by
  obtain ⟨before, quiet, counted, emits⟩ := first
  obtain ⟨after, quiet', counted', emits'⟩ := second
  rw [List.append_nil] at emits
  refine ⟨before ++ after, ?_, ?_, ?_⟩
  · rw [List.all_append, quiet, quiet', Bool.and_self]
  · rw [List.countP_append, counted, counted', sum]
  · rw [List.append_assoc]
    exact emits.bind emits'

theorem bind_error {e : ε} {next : α → Logged ε β} (first : Reports work (.error e) n ending) :
    Reports (work >>= next) (.error e) n ending := by
  obtain ⟨calm, quiet, counted, emits⟩ := first
  exact ⟨calm, quiet, counted, emits.bind_error⟩

/-- A plain event before other work. -/
theorem after (event : Event) (plain : event.mark.isPlain = true)
    (reports : Reports work result n ending) :
    Reports (do Logged.emit event; work) result n ending := by
  obtain ⟨calm, quiet, counted, emits⟩ := reports
  obtain ⟨still, other⟩ := (Bool.and_eq_true _ _).mp plain
  refine ⟨event.mark :: calm, ?_, ?_, (Emits.emit event).bind emits⟩
  · rw [List.all_cons, still, quiet, Bool.and_self]
  · rw [List.countP_cons_of_neg (by simpa using other), counted]

theorem tryCatch_ok {a : α} (handle : ε → Logged ε α) (reports : Reports work (.ok a) n ending) :
    Reports (tryCatch work handle) (.ok a) n ending := by
  obtain ⟨calm, quiet, counted, emits⟩ := reports
  exact ⟨calm, quiet, counted, emits.tryCatch_ok handle⟩

theorem tryCatch_error {e : ε} {handle : ε → Logged ε α} {final : Except ε α}
    (reports : Reports work (.error e) n []) (handled : Emits (handle e) final ending) :
    Reports (tryCatch work handle) final n ending := by
  obtain ⟨calm, quiet, counted, emits⟩ := reports
  rw [List.append_nil] at emits
  exact ⟨calm, quiet, counted, emits.tryCatch_error handled⟩

theorem mapFault (f : ε → δ) (reports : Reports work result n ending) :
    Reports (work.mapFault f) (result.mapError f) n ending := by
  obtain ⟨calm, quiet, counted, emits⟩ := reports
  exact ⟨calm, quiet, counted, emits.mapFault f⟩

theorem within (file : FileContext) (reports : Reports work result n ending) :
    Reports (Logged.within file work) result n ending := by
  obtain ⟨calm, quiet, counted, emits⟩ := reports
  exact ⟨calm, quiet, counted, emits.within file⟩

end Reports

end Logged

namespace Document

/-- What loading a file comes to. -/
def fetch (settings : FileSettings) (look : FileSystem) (path : String) :
    Except LoadError Document :=
  (locate look path).bind fun file =>
    (vet settings (metadataOf file)).bind fun _ => read (metadataOf file) file.content

variable {settings : FileSettings} {look : FileSystem} {path : String}

theorem reading_reports : (reading settings look path).Reports (fetch settings look path) 0 [] := by
  unfold reading fetch
  cases found : locate look path with
  | error e => exact (Logged.Reports.lift (.error e)).bind_error
  | ok file =>
    dsimp only [Except.bind]
    refine (Logged.Reports.lift (.ok file)).bind (.after _ rfl ?_) (Nat.zero_add 0)
    cases vetted : vet settings (metadataOf file) with
    | error e => exact (Logged.Reports.lift (.error e)).bind_error
    | ok _ => exact (Logged.Reports.lift (.ok _)).bind (.lift _) rfl

variable {elapsed : Nat}

theorem load_reports_error {e : LoadError} (failed : fetch settings look path = .error e) :
    (load settings elapsed look path).Reports (.error e) 0 [.fault e.code none] := by
  have told : (do Logged.emit (failureEvent path e); throw e : Logged LoadError Document).Emits
      (.error e) [.fault e.code none] := (Logged.Emits.emit _).bind (.throw e)
  exact .after _ rfl ((failed ▸ reading_reports).tryCatch_error told).bind_error

theorem load_reports_ok {document : Document} (fetched : fetch settings look path = .ok document) :
    (load settings elapsed look path).Reports (.ok document) 0 [] :=
  .after _ rfl
    (((fetched ▸ reading_reports).tryCatch_ok _).bind (.after _ rfl (.pure document)) rfl)

end Document

namespace Analysis

variable {counting : Counting} {source : SourceText} {stream : TokenStream} {name : String}
  {tree : Query}

theorem scan_reports_error {e : LexicalError}
    (refused : (tokenize counting source).outcome = .error e) :
    (scan counting source).Reports (.error e) 0 [.fault e.code e.span] := by
  unfold scan
  dsimp only
  rw [refused]
  exact .after _ rfl (.fault _ e)

theorem scan_reports_ok (ended : (tokenize counting source).outcome = .ok stream) :
    (scan counting source).Reports (.ok (stream, (tokenize counting source).tally)) 0 [] := by
  unfold scan
  dsimp only
  rw [ended]
  exact .after _ rfl (.after _ rfl (.after _ rfl (.pure _)))

/-- A fault of the grammar is reported once, and once more before that if input trails. -/
theorem parse_reports_error {e : SyntaxError} (failed : parseQuery name stream = .error e) :
    (stream.Trails ∧ (parse name stream).Reports (.error e) 0
      [.fault e.code e.span, .fault e.code e.span]) ∨
    (¬stream.Trails ∧ (parse name stream).Reports (.error e) 0 [.fault e.code e.span]) := by
  rw [← isTrailing_iff failed]
  unfold parse
  rw [failed]
  dsimp only
  cases trailing : e.isTrailing with
  | true =>
    rw [if_pos rfl]
    have told : (do Logged.emit (parseFailed e); throw e : Logged SyntaxError Query).Emits
        (.error e) [.fault e.code e.span] := (Logged.Emits.emit _).bind (.throw e)
    exact .inl ⟨rfl, .after _ rfl (.after _ rfl (.of_emits ((Logged.Emits.emit _).bind told)))⟩
  | false =>
    rw [if_neg Bool.false_ne_true]
    exact .inr ⟨Bool.false_ne_true, .after _ rfl (.after _ rfl (.fault _ e))⟩

theorem parse_reports_ok (parsed : parseQuery name stream = .ok tree) :
    (parse name stream).Reports (.ok tree) 0 [] := by
  unfold parse
  rw [parsed]
  exact .after _ rfl (.after _ rfl (.after _ rfl (.pure tree)))

theorem rebindings_report (sites : List Binding.Site) :
    (forIn sites PUnit.unit fun site _ => do
        Logged.emit (reboundVariable site)
        pure (ForInStep.yield PUnit.unit) : Logged Binding.ResolutionError PUnit).Reports
      (.ok ⟨⟩) sites.length [] := by
  have same : (sites.map fun _ => Mark.rebinding) = List.replicate sites.length .rebinding :=
    List.map_const' ..
  refine ⟨List.replicate sites.length .rebinding, ?_, ?_, ?_⟩
  · rw [List.all_replicate]
    split <;> rfl
  · rw [List.countP_replicate]
    rfl
  · rw [List.append_nil, ← same]
    exact .emitAll reboundVariable sites

theorem resolve_reports_error {e : Binding.ResolutionError}
    (failed : Binding.resolve tree = .error e) :
    ∃ n, (resolve tree).Reports (.error e) n [.fault e.code e.span] := by
  refine ⟨_, .after _ rfl ((rebindings_report _).bind ?_ (Nat.add_zero _))⟩
  rw [failed]
  exact .fault _ e

theorem resolve_reports_ok {table : Binding.Table} (resolved : Binding.resolve tree = .ok table) :
    (resolve tree).Reports (.ok table) table.further [] := by
  rw [← Binding.length_reboundSites resolved]
  refine .after _ rfl ((rebindings_report _).bind ?_ (Nat.add_zero _))
  rw [resolved]
  exact .after _ rfl (.pure table)

theorem completion_reports (elapsed : Nat) (report : Report) :
    (do Logged.emit (succeeded name elapsed report); return report :
      Logged AnalysisError Report).Reports (.ok report) 0 [.completed] :=
  .of_emits ((Logged.Emits.emit _).bind (.pure report))

end Analysis

end EventQuery
