import EventQuery.Analysis.Report
import EventQuery.Proofs.Log.Tagging

set_option autoImplicit false

namespace EventQuery

open Event (ordered_adding)

namespace Document

theorem reading_steady (settings : FileSettings) (look : FileSystem) (path : String) :
    (reading settings look path).Steady := by
  unfold reading
  refine (Logged.Steady.lift _).bind fun file => .after (ordered_adding rfl _) ?_
  exact (Logged.Steady.lift _).bind fun _ => .lift _

theorem load_steady (settings : FileSettings) (elapsed : Nat) (look : FileSystem) (path : String) :
    (load settings elapsed look path).Steady := by
  unfold load
  refine .after (ordered_adding rfl _) (Logged.Steady.bind ?_ fun document => ?_)
  · refine (reading_steady settings look path).tryCatch fun e => ?_
    exact .after (ordered_adding rfl _) (.throw e)
  · exact .after (ordered_adding rfl _) (.pure document)

end Document

namespace Analysis

theorem scan_steady (counting : Counting) (source : SourceText) :
    (scan counting source).Steady := by
  unfold scan
  refine .after (ordered_adding rfl _) ?_
  dsimp only
  cases (tokenize counting source).outcome with
  | error e => exact .after (ordered_adding rfl _) (.throw e)
  | ok stream => exact .after (ordered_adding rfl _) (.after (ordered_adding rfl _) (.pure _))

theorem parse_steady (name : String) (stream : TokenStream) : (parse name stream).Steady := by
  unfold parse
  refine .after (ordered_adding rfl _) (.after (ordered_adding rfl _) ?_)
  cases parseQuery name stream with
  | error e =>
    have failed : (do Logged.emit (parseFailed e); throw e : Logged SyntaxError Query).Steady :=
      .after (ordered_adding rfl _) (.throw e)
    dsimp only
    split
    · exact .after (ordered_adding rfl _) failed
    · exact failed
  | ok tree => exact .after (ordered_adding rfl _) (.pure tree)

theorem resolve_steady (tree : Query) : (resolve tree).Steady := by
  unfold resolve
  refine .after (ordered_adding rfl _) (Logged.Steady.bind ?_ fun _ => ?_)
  · exact .emitAll reboundVariable (fun site => ordered_adding rfl _) _
  · cases Binding.resolve tree with
    | error e => exact .after (ordered_adding rfl _) (.throw e)
    | ok table => exact .after (ordered_adding rfl _) (.pure table)

theorem finish_steady (name : String) (elapsed : Nat) (file : Option (Document.Metadata × Nat))
    (scanned : TokenStream × Tally) : (finish name elapsed file scanned).Steady := by
  unfold finish
  refine (parse_steady name scanned.1).mapFault _ |>.bind fun tree => ?_
  refine (resolve_steady tree).mapFault _ |>.bind fun table => ?_
  exact .after (ordered_adding rfl _) (.pure _)

theorem ofText_steady (counting : Counting) (elapsed : Nat) (source : SourceText) :
    (ofText counting elapsed source).Steady :=
  (scan_steady counting source).mapFault _ |>.bind (finish_steady source.name elapsed none)

/-- Whatever a path leads to and wherever an analysis of its file stops, the journal has the file
again that it had before. A journal with tags takes the same events as one without, and each of them
carries the path that was given and the number zero as its file. -/
theorem ofFile_scoped (settings : Settings) (elapsed : Nat) (look : Document.FileSystem)
    (path : String) (j : Journal) :
    (ofFile settings elapsed look path j).2.file = j.file ∧
    ∃ (result : Except AnalysisError Report) (raised taken : List Event),
      ofFile settings elapsed look path { j with tagsFiles := false } =
        (result, { j with tagsFiles := false, events := raised.reverse ++ j.events }) ∧
      ofFile settings elapsed look path { j with tagsFiles := true } =
        (result, { j with tagsFiles := true, events := taken.reverse ++ j.events }) ∧
      List.Forall₂ (Event.CarriesFile ⟨path, 0⟩) raised taken := by
  refine ⟨rfl, Logged.Steady.within (.after (ordered_adding rfl _) ?_) ⟨path, 0⟩ j⟩
  refine (Document.load_steady settings.files elapsed look path).mapFault _ |>.bind
    fun document => ?_
  refine (scan_steady settings.counting _).mapFault _ |>.bind fun scanned => ?_
  exact finish_steady path elapsed _ scanned

-- The warning of a variable that is bound again has no file of its own.
example :
    (ofFile (Environment.settings []) 0 (fun _ => .file "/queries/q" 15 "A as x : B as x".toUTF8)
      "q" (.empty .warning true)).2.entries.map (·.context) =
    [[("at", "1:15"), ("file", "q"), ("file_id", "0"), ("relation", "B"), ("variable", "x")]] := by
  decide +kernel

end Analysis

end EventQuery
