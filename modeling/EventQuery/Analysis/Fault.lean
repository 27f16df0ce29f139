import EventQuery.Binding.Resolution
import EventQuery.Document.Loading
import EventQuery.Grammar.Session
import EventQuery.Lexeme.Scan

set_option autoImplicit false

namespace EventQuery

inductive AnalysisError where
  | loading (error : LoadError)
  | lexical (error : LexicalError)
  | grammatical (error : SyntaxError)
  | resolution (error : Binding.ResolutionError)
  deriving DecidableEq

namespace AnalysisError

/-- What the stage that failed says. -/
def innerMessage : AnalysisError → String
  | loading e => e.message
  | lexical e => e.message
  | grammatical e => e.message
  | resolution e => e.message

def message (e : AnalysisError) : String :=
  let failed := match e with
    | loading _ => "File processing failed: "
    | lexical _ => "Lexical analysis failed: "
    | grammatical _ => "Syntax analysis failed: "
    | resolution _ => "Variable resolution failed: "
  failed ++ e.innerMessage

def stage : AnalysisError → String
  | loading _ => "file processing"
  | lexical _ => "lexical analysis"
  | grammatical _ => "syntax analysis"
  | resolution _ => "variable resolution"

def code : AnalysisError → Code
  | loading e => e.code
  | lexical e => e.code
  | grammatical e => e.code
  | resolution e => e.code

/-- The place in the query. Files that were not loaded have none. -/
def span? : AnalysisError → Option Span
  | loading _ => none
  | lexical e => some e.span
  | grammatical e => some e.span
  | resolution e => some e.span

end AnalysisError

end EventQuery
