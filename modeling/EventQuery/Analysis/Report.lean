import EventQuery.Analysis.Stages

set_option autoImplicit false

namespace EventQuery

/-- All that is known of a query. A query that is no file has no metadata. -/
structure Report where
  tree : Query
  table : Binding.Table
  stream : TokenStream
  tally : Tally
  file : Option (Document.Metadata × Nat)

namespace Analysis

/-- The distance of the number one from the next larger one. -/
def epsilon : Float := 2.220446049250313e-16

/-- A duration of so many nanoseconds in seconds, never zero. -/
def duration (elapsed : Nat) : Float := max (Document.seconds elapsed) epsilon

/-- The tokens read in a second, for a duration in seconds. -/
def tokenRate (tokens : Nat) (duration : Float) : String :=
  String.ofList (Decimal.fixedText 0 (Float.ofNat tokens / duration))

def succeeded (name : String) (elapsed : Nat) (report : Report) : Event :=
  (Event.success .completed "CEPL processing pipeline succeeded").adding
    [("source", name), ("duration_ms", Document.milliseconds 2 (duration elapsed)),
      ("nodes", toString report.tree.nodeCount), ("variables", toString report.table.size),
      ("processing_rate_tokens_per_sec", tokenRate report.stream.size (duration elapsed))]

/-- The stages behind the tokens. -/
def finish (name : String) (elapsed : Nat) (file : Option (Document.Metadata × Nat))
    (scanned : TokenStream × Tally) : Logged AnalysisError Report := do
  let tree ← (parse name scanned.1).mapFault .grammatical
  let table ← (resolve tree).mapFault .resolution
  let report : Report := ⟨tree, table, scanned.1, scanned.2, file⟩
  Logged.emit (succeeded name elapsed report)
  return report

/-- Analyses a text. Its name only appears in diagnostics, and `elapsed`, the time taken in
nanoseconds, only in the log. -/
def ofText (counting : Counting) (elapsed : Nat) (source : SourceText) :
    Logged AnalysisError Report := do
  let scanned ← (scan counting source).mapFault .lexical
  finish source.name elapsed none scanned

def fileStarted (path : String) : Event :=
  (Event.info "Starting CEPL file processing pipeline").adding [("file", path)]

/-- Analyses a file. Tokens are reported under the full path of the file, faults of the grammar
under the path as it was given. -/
def ofFile (settings : Settings) (elapsed : Nat) (look : Document.FileSystem) (path : String) :
    Logged AnalysisError Report :=
  Logged.within ⟨path, 0⟩ do
    Logged.emit (fileStarted path)
    let document ← (Document.load settings.files elapsed look path).mapFault .loading
    let source := SourceText.ofString document.metadata.path document.text
    let scanned ← (scan settings.counting source).mapFault .lexical
    finish path elapsed (some (document.metadata, document.lines)) scanned

end Analysis

end EventQuery
