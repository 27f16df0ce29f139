import EventQuery.Proofs.Analysis.Reporting
import EventQuery.Proofs.Analysis.Scope

set_option autoImplicit false

namespace EventQuery

/-- Steady work comes to the result that it reports, whatever journal it is given. -/
theorem Logged.Steady.eq_of_reports {ε α : Type} {work : Logged ε α} {result : Except ε α}
    {n : Nat} {ending : List Mark} (steady : work.Steady) (reports : work.Reports result n ending)
    (j : Journal) : (work j).1 = result := by
  obtain ⟨only, raised, _, ran⟩ := steady
  obtain ⟨calm, _, _, emits⟩ := reports
  obtain ⟨events, came, _⟩ := emits { j with least := .debug } rfl
  have same : only = result := by
    rw [ran] at came
    exact congrArg Prod.fst came
  rw [ran, same]

namespace Analysis

variable (counting : Counting) (elapsed : Nat) (source : SourceText)

/-- The error of the stage at which the analysis of a text stops. -/
inductive Stops : AnalysisError → Prop
  | lexical {e : LexicalError} (refused : (tokenize counting source).outcome = .error e) :
      Stops (.lexical e)
  | grammatical {stream : TokenStream} {e : SyntaxError}
      (ended : (tokenize counting source).outcome = .ok stream)
      (failed : parseQuery source.name stream = .error e) : Stops (.grammatical e)
  | resolution {stream : TokenStream} {tree : Query} {e : Binding.ResolutionError}
      (ended : (tokenize counting source).outcome = .ok stream)
      (parsed : parseQuery source.name stream = .ok tree)
      (unresolved : Binding.resolve tree = .error e) : Stops (.resolution e)

variable {counting elapsed source}

theorem ofText_eq_of_refused {fault : LexicalError}
    (refused : (tokenize counting source).outcome = .error fault) (j : Journal) :
    (ofText counting elapsed source j).1 = .error (.lexical fault) := by
  have scanning := (scan_reports_error refused).mapFault AnalysisError.lexical
  exact (ofText_steady counting elapsed source).eq_of_reports scanning.bind_error j

theorem stops_of_error {j : Journal} {e : AnalysisError}
    (failed : (ofText counting elapsed source j).1 = .error e) : Stops counting source e := by
  have steady := ofText_steady counting elapsed source
  cases ended : (tokenize counting source).outcome with
  | error fault =>
    rw [ofText_eq_of_refused ended j] at failed
    cases failed
    exact .lexical ended
  | ok stream =>
    have scanning := (scan_reports_ok ended).mapFault AnalysisError.lexical
    cases parsed : parseQuery source.name stream with
    | error fault =>
      obtain ⟨ending, reports⟩ : ∃ ending, (parse source.name stream).Reports (.error fault) 0
          ending := (parse_reports_error parsed).elim (fun twice => ⟨_, twice.2⟩)
            fun once => ⟨_, once.2⟩
      have parsing := reports.mapFault AnalysisError.grammatical
      rw [steady.eq_of_reports (scanning.bind parsing.bind_error rfl) j] at failed
      cases failed
      exact .grammatical ended parsed
    | ok tree =>
      have parsing := (parse_reports_ok parsed).mapFault AnalysisError.grammatical
      cases resolved : Binding.resolve tree with
      | error fault =>
        obtain ⟨n, reports⟩ := resolve_reports_error resolved
        have resolving := reports.mapFault AnalysisError.resolution
        rw [steady.eq_of_reports (scanning.bind (parsing.bind resolving.bind_error rfl) rfl) j]
          at failed
        cases failed
        exact .resolution ended parsed resolved
      | ok table =>
        have resolving := (resolve_reports_ok resolved).mapFault AnalysisError.resolution
        have finishing : (finish source.name elapsed none
            (stream, (tokenize counting source).tally)).Reports _ _ _ :=
          parsing.bind (resolving.bind (completion_reports elapsed _) rfl) rfl
        rw [steady.eq_of_reports (scanning.bind finishing rfl) j] at failed
        cases failed

end Analysis

end EventQuery
