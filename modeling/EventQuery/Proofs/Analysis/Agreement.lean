import EventQuery.Proofs.Analysis.Reporting

set_option autoImplicit false

namespace EventQuery

open Logged (Reports)

/-- How the log of an analysis ends: with its completion, or with its fault, which is told twice if
it is input that trails behind a query. -/
inductive Closes (trailing : Prop) : Except AnalysisError Report → Nat → List Mark → Prop
  | completed {report : Report} (closed : ¬trailing) :
    Closes trailing (.ok report) report.table.further [.completed]
  | failed {e : AnalysisError} {n : Nat} (times : Nat) (once : ¬trailing → times = 1)
    (twice : trailing → times = 2 ∧ ∃ fault, e = .grammatical fault) :
    Closes trailing (.error e) n (List.replicate times (.fault e.code e.span?))

/-- The work reports a result, and closes its log with it. -/
def Concludes (work : Logged AnalysisError Report) (trailing : Prop) : Prop :=
  ∃ result n ending, work.Reports result n ending ∧ Closes trailing result n ending

/-- Input trails behind a query in the tokens of the text. -/
def SourceText.Trails (source : SourceText) (counting : Counting) : Prop :=
  ∃ stream, (tokenize counting source).outcome = .ok stream ∧ stream.Trails

/-- Input trails behind a query in the file that a path leads to. -/
def Document.Trails (settings : Settings) (look : Document.FileSystem) (path : String) : Prop :=
  ∃ document, Document.fetch settings.files look path = .ok document ∧
    (SourceText.ofString document.metadata.path document.text).Trails settings.counting

namespace Concludes

variable {α : Type} {work : Logged AnalysisError α} {trailing trailing' : Prop}

theorem congr {whole : Logged AnalysisError Report} (concludes : Concludes whole trailing)
    (same : trailing' ↔ trailing) : Concludes whole trailing' :=
  propext same ▸ concludes

/-- A stage that fails ends the analysis. -/
theorem of_error {e : AnalysisError} {n : Nat} {next : α → Logged AnalysisError Report}
    (failed : work.Reports (.error e) n [.fault e.code e.span?]) (closed : ¬trailing) :
    Concludes (work >>= next) trailing :=
  ⟨_, _, _, failed.bind_error, .failed 1 (fun _ => rfl) (absurd · closed)⟩

/-- A stage that binds no variable leaves the conclusion to the stages behind it. -/
theorem bind {a : α} {next : α → Logged AnalysisError Report} (done : work.Reports (.ok a) 0 [])
    (concludes : Concludes (next a) trailing) : Concludes (work >>= next) trailing := by
  obtain ⟨result, n, ending, reports, closes⟩ := concludes
  exact ⟨result, n, ending, done.bind reports (Nat.zero_add n), closes⟩

end Concludes

namespace Analysis

variable (counting : Counting) (elapsed : Nat)

theorem finish_concludes (name : String) (file : Option (Document.Metadata × Nat))
    (scanned : TokenStream × Tally) :
    Concludes (finish name elapsed file scanned) scanned.1.Trails := by
  unfold finish
  cases parsed : parseQuery name scanned.1 with
  | error e =>
    rcases parse_reports_error parsed with ⟨behind, reports⟩ | ⟨closed, reports⟩
    · exact ⟨_, _, _, (reports.mapFault AnalysisError.grammatical).bind_error,
        .failed 2 (absurd behind) fun _ => ⟨rfl, e, rfl⟩⟩
    · exact .of_error (reports.mapFault AnalysisError.grammatical) closed
  | ok tree =>
    have closed : ¬scanned.1.Trails := not_trails_of_ok parsed
    refine .bind ((parse_reports_ok parsed).mapFault AnalysisError.grammatical) ?_
    cases resolved : Binding.resolve tree with
    | error e =>
      obtain ⟨n, reports⟩ := resolve_reports_error resolved
      exact .of_error (reports.mapFault AnalysisError.resolution) closed
    | ok table =>
      have resolves := (resolve_reports_ok resolved).mapFault AnalysisError.resolution
      exact ⟨_, _, _, resolves.bind (completion_reports elapsed _) (Nat.add_zero _),
        .completed closed⟩

/-- The stages that texts and files have in common. -/
theorem scanned_concludes (source : SourceText) (name : String)
    (file : Option (Document.Metadata × Nat)) :
    Concludes ((scan counting source).mapFault .lexical >>= finish name elapsed file)
      (source.Trails counting) := by
  cases ended : (tokenize counting source).outcome with
  | error e =>
    refine .of_error ((scan_reports_error ended).mapFault AnalysisError.lexical) ?_
    rintro ⟨stream, read, _⟩
    rw [ended] at read
    cases read
  | ok stream =>
    refine .bind ((scan_reports_ok ended).mapFault AnalysisError.lexical) ?_
    refine (finish_concludes elapsed name file _).congr ⟨?_, fun trails => ⟨_, ended, trails⟩⟩
    rintro ⟨stream', read, trails⟩
    rw [ended] at read
    cases read
    exact trails

theorem ofText_concludes (source : SourceText) :
    Concludes (ofText counting elapsed source) (source.Trails counting) :=
  scanned_concludes counting elapsed source source.name none

theorem ofFile_concludes (settings : Settings) (look : Document.FileSystem) (path : String) :
    Concludes (ofFile settings elapsed look path) (Document.Trails settings look path) := by
  suffices inside : Concludes (do
      Logged.emit (fileStarted path)
      let document ← (Document.load settings.files elapsed look path).mapFault .loading
      let source := SourceText.ofString document.metadata.path document.text
      let scanned ← (scan settings.counting source).mapFault .lexical
      finish path elapsed (some (document.metadata, document.lines)) scanned)
      (Document.Trails settings look path) by
    obtain ⟨result, n, ending, reports, closes⟩ := inside
    exact ⟨result, n, ending, reports.within ⟨path, 0⟩, closes⟩
  refine .bind (.after _ rfl (.pure ())) ?_
  cases fetched : Document.fetch settings.files look path with
  | error e =>
    refine .of_error ((Document.load_reports_error fetched).mapFault AnalysisError.loading) ?_
    rintro ⟨document, found, _⟩
    rw [fetched] at found
    cases found
  | ok document =>
    refine .bind ((Document.load_reports_ok fetched).mapFault AnalysisError.loading) ?_
    refine (scanned_concludes settings.counting elapsed _ path _).congr
      ⟨?_, fun trails => ⟨document, fetched, trails⟩⟩
    rintro ⟨document', found, trails⟩
    rw [fetched] at found
    cases found
    exact trails

end Analysis

/-- The log tells of a fault just where the analysis fails, always of that fault and once, or twice
if input trails behind a query. It tells of the completion just where the analysis succeeds, and
last. -/
structure Agrees (trailing : Prop) (result : Except AnalysisError Report) (log : List Mark) :
    Prop where
  failed_iff : (∃ m ∈ log, m.level = .error) ↔ ∃ e, result = .error e
  own : ∀ e, result = .error e → ∀ m ∈ log, m.level = .error → m.code = e.code ∧ m.span = e.span?
  twice : trailing → (∃ e, result = .error (.grammatical e)) ∧ log.countP (·.level = .error) = 2
  once : ¬trailing → ∀ e, result = .error e → log.countP (·.level = .error) = 1
  completed_iff : (∃ m ∈ log, m.code = .completed) ↔ ∃ report, result = .ok report
  last : ∀ before m after, log = before ++ m :: after → m.code = .completed → after = []

variable {trailing : Prop} {result : Except AnalysisError Report} {calm ending : List Mark}

/-- No fault has the code of the completion. -/
theorem AnalysisError.code_ne_completed (e : AnalysisError) : e.code ≠ .completed := by
  apply of_decide_eq_false
  cases e with
  | loading e => cases e <;> rfl
  | lexical e =>
    obtain ⟨fault, position⟩ := e
    cases fault <;> rfl
  | grammatical e => rfl
  | resolution e => rfl

/-- The end of a log agrees with the result in itself. -/
theorem Closes.agrees {n : Nat} (closes : Closes trailing result n ending) :
    Agrees trailing result ending := by
  cases closes with
  | completed closed =>
    refine ⟨?failed_iff, fun _ failed => ?own, (absurd · closed), fun _ _ failed => ?once,
      ?completed_iff, ?last⟩
    case failed_iff => simp [Mark.completed]
    case own => cases failed
    case once => cases failed
    case completed_iff => simp [Mark.completed]
    case last =>
      intro before m after split _
      cases before <;> simp_all
  | @failed e _ times once twice =>
    have some : times ≠ 0 := by
      by_cases behind : trailing
      · rw [(twice behind).1]
        exact Nat.succ_ne_zero 1
      · rw [once behind]
        exact Nat.succ_ne_zero 0
    have own : ∀ m ∈ List.replicate times (Mark.fault e.code e.span?), m = .fault e.code e.span? :=
      fun m => List.eq_of_mem_replicate
    have counted : (List.replicate times (Mark.fault e.code e.span?)).countP (·.level = .error) =
        times := by
      rw [List.countP_replicate]
      rfl
    have never : ∀ m ∈ List.replicate times (Mark.fault e.code e.span?), m.code ≠ .completed := by
      intro m member
      rw [own m member]
      exact e.code_ne_completed
    refine ⟨?failed_iff, ?own, ?twice, ?once, ?completed_iff, ?last⟩
    case failed_iff =>
      exact ⟨fun _ => ⟨e, rfl⟩, fun _ => ⟨_, List.mem_replicate.mpr ⟨some, rfl⟩, rfl⟩⟩
    case own =>
      rintro _ ⟨⟩ m member _
      rw [own m member]
      exact ⟨rfl, rfl⟩
    case twice =>
      intro behind
      obtain ⟨two, fault, rfl⟩ := twice behind
      exact ⟨⟨fault, rfl⟩, counted.trans two⟩
    case once => exact fun closed _ _ => counted.trans (once closed)
    case completed_iff =>
      constructor
      · rintro ⟨m, member, code⟩
        exact absurd code (never m member)
      · rintro ⟨_, ⟨⟩⟩
    case last =>
      intro before m after split code
      exact absurd code (never m (split ▸ List.mem_append_right _ List.mem_cons_self))

theorem Mark.isCalm_iff {m : Mark} : m.isCalm = true ↔ m.level ≠ .error ∧ m.code ≠ .completed := by
  simp [Mark.isCalm]

/-- Calm events before the end change nothing. -/
theorem Agrees.after_calm (agrees : Agrees trailing result ending)
    (quiet : calm.all Mark.isCalm = true) : Agrees trailing result (calm ++ ending) := by
  have still : ∀ m ∈ calm, m.level ≠ .error ∧ m.code ≠ .completed := fun m member =>
    Mark.isCalm_iff.mp (List.all_eq_true.mp quiet m member)
  have fault {m : Mark} (member : m ∈ calm ++ ending) (level : m.level = .error) : m ∈ ending :=
    (List.mem_append.mp member).resolve_left fun early => (still m early).1 level
  have completion {m : Mark} (member : m ∈ calm ++ ending) (code : m.code = .completed) :
      m ∈ ending :=
    (List.mem_append.mp member).resolve_left fun early => (still m early).2 code
  have counted : (calm ++ ending).countP (·.level = .error) =
      ending.countP (·.level = .error) := by
    have silent : calm.countP (·.level = .error) = 0 :=
      List.countP_eq_zero.mpr fun m member => by simpa using (still m member).1
    rw [List.countP_append, silent, Nat.zero_add]
  refine ⟨?failed_iff, ?own, ?twice, ?once, ?completed_iff, ?last⟩
  case failed_iff =>
    rw [← agrees.failed_iff]
    constructor
    · exact fun ⟨m, member, level⟩ => ⟨m, fault member level, level⟩
    · exact fun ⟨m, member, level⟩ => ⟨m, List.mem_append_right _ member, level⟩
  case own => exact fun e failed m member level => agrees.own e failed m (fault member level) level
  case twice => exact fun behind => ⟨(agrees.twice behind).1, counted.trans (agrees.twice behind).2⟩
  case once => exact fun closed e failed => counted.trans (agrees.once closed e failed)
  case completed_iff =>
    rw [← agrees.completed_iff]
    constructor
    · exact fun ⟨m, member, code⟩ => ⟨m, completion member code, code⟩
    · exact fun ⟨m, member, code⟩ => ⟨m, List.mem_append_right _ member, code⟩
  case last =>
    intro before m after split code
    rcases List.append_eq_append_iff.mp split with ⟨front, _, rest⟩ | ⟨early, within, rest⟩
    · exact agrees.last front m after rest code
    · cases early with
      | nil => exact agrees.last [] m after rest.symm code
      | cons m' early =>
        obtain ⟨rfl, _⟩ := List.cons.inj rest
        have member : m ∈ calm := within ▸ List.mem_append_right _ List.mem_cons_self
        exact absurd code (still m member).2

/-- From any journal that takes all events, the work comes to a result and has taken events that
agree with it. On success, a variable has been reported for each relation that the table gives it
beyond its first. -/
def Accounted (work : Logged AnalysisError Report) (trailing : Prop) : Prop :=
  ∀ (tagsFiles : Bool) (file : Option FileContext) (earlier : List Event),
    ∃ (result : Except AnalysisError Report) (events : List Event),
      work ⟨.debug, tagsFiles, file, earlier⟩ =
        (result, ⟨.debug, tagsFiles, file, events.reverse ++ earlier⟩) ∧
      Agrees trailing result (events.map Event.mark) ∧
      ∀ report, result = .ok report →
        (events.map Event.mark).countP Mark.isRebinding = report.table.further

theorem Concludes.accounted {work : Logged AnalysisError Report}
    (concludes : Concludes work trailing) : Accounted work trailing := by
  intro tagsFiles file earlier
  obtain ⟨result, n, ending, ⟨calm, quiet, counted, emits⟩, closes⟩ := concludes
  obtain ⟨events, ran, marks⟩ := emits ⟨.debug, tagsFiles, file, earlier⟩ rfl
  refine ⟨result, events, ran, ?_, ?_⟩
  · rw [marks]
    exact closes.agrees.after_calm quiet
  · rintro report rfl
    cases closes
    rw [marks, List.countP_append, counted]
    rfl

/-- Texts and files alike are accounted for in the log, whatever a path leads to. -/
theorem analyses_accounted :
    (∀ counting elapsed source,
      Accounted (Analysis.ofText counting elapsed source) (source.Trails counting)) ∧
    (∀ settings elapsed look path,
      Accounted (Analysis.ofFile settings elapsed look path)
        (Document.Trails settings look path)) :=
  ⟨fun counting elapsed source => (Analysis.ofText_concludes counting elapsed source).accounted,
    fun settings elapsed look path =>
      (Analysis.ofFile_concludes elapsed settings look path).accounted⟩

example :
    (Analysis.ofText ⟨true, true⟩ 0 (.ofString "q" "A as x : B as x")
      (.empty .info false)).2.entries.map (·.code) =
    [.tokenized, .parsed, .reboundVariable, .resolved, .completed] := by decide +kernel

-- Input behind a complete query is reported by the parser and again by its caller.
example :
    (Analysis.ofText ⟨true, true⟩ 0 (.ofString "q" "A as x y")
      (.empty .info false)).2.entries.map (fun e => (e.level, e.code)) =
    [(.info, .tokenized), (.error, .unexpectedToken), (.error, .unexpectedToken)] := by
  decide +kernel

end EventQuery
