import EventQuery.Analysis.Fault

set_option autoImplicit false

namespace EventQuery.Analysis

def scanStarted (source : SourceText) : Event :=
  (Event.debug "Starting lexical analysis").adding
    [("source", source.name), ("bytes", toString source.size)]

def scanFailed (source : SourceText) (error : LexicalError) : Event :=
  { Event.error error.code error.message with span := some error.span }.adding
    [("source", source.name)]

def scanDone (source : SourceText) (tally : Tally) : Event :=
  (Event.success .tokenized "Tokenization completed").adding
    [("source", source.name), ("tokens", toString tally.total),
      ("comments", toString tally.comments), ("max_nesting", toString tally.deepest)]

def streamBuilt (stream : TokenStream) : Event :=
  (Event.debug "Token stream constructed").adding
    [("total_tokens", toString stream.tokens.length), ("significant_tokens", toString stream.size)]

/-- Splits a source into tokens. -/
def scan (counting : Counting) (source : SourceText) :
    Logged LexicalError (TokenStream × Tally) := do
  Logged.emit (scanStarted source)
  let found := tokenize counting source
  match found.outcome with
  | .error error =>
    Logged.emit (scanFailed source error)
    throw error
  | .ok stream =>
    Logged.emit (scanDone source found.tally)
    Logged.emit (streamBuilt stream)
    return (stream, found.tally)

def parseStarted (stream : TokenStream) : Event :=
  (Event.debug "Starting syntax analysis").adding [("tokens", toString stream.size)]

def queryStarted (name : String) (stream : TokenStream) : Event :=
  (Event.debug "Starting CEPL parse").adding
    [("source", name), ("tokens", toString stream.size)]

def inputTrails (error : SyntaxError) : Event :=
  { Event.error error.code "Trailing input after complete expression" with
    span := some error.span }.adding [("found", error.foundText)]

def parseFailed (error : SyntaxError) : Event :=
  { Event.error error.code "Syntax analysis failed" with span := some error.span }.adding
    [("error", error.message)]

def parseDone (tree : Query) : Event :=
  (Event.success .parsed "Syntax analysis completed successfully").adding
    [("nodes", toString tree.nodeCount), ("depth", toString tree.depth)]

/-- Reads the tree of a query. Input behind a complete query is reported on its own first. -/
def parse (name : String) (stream : TokenStream) : Logged SyntaxError Query := do
  Logged.emit (parseStarted stream)
  Logged.emit (queryStarted name stream)
  match parseQuery name stream with
  | .error error =>
    if error.isTrailing then Logged.emit (inputTrails error)
    Logged.emit (parseFailed error)
    throw error
  | .ok tree =>
    Logged.emit (parseDone tree)
    return tree

def resolveStarted (tree : Query) : Event :=
  (Event.debug "Starting variable resolution").adding [("nodes", toString tree.nodeCount)]

def reboundVariable (site : Binding.Site) : Event :=
  (Event.warning .reboundVariable "Variable bound to more than one relation").adding
    [("variable", site.name), ("relation", site.relation), ("at", site.span.render)]

def resolveFailed (error : Binding.ResolutionError) : Event :=
  { Event.error error.code "Reference to unbound variable" with span := some error.span }.adding
    [("variable", error.reference.name), ("property", error.reference.property)]

def resolveDone (tree : Query) (table : Binding.Table) : Event :=
  (Event.success .resolved "Variable resolution completed").adding
    [("variables", toString table.size), ("references", toString tree.references.length)]

/-- Collects the variables of a query. A variable with more than one relation is reported. -/
def resolve (tree : Query) : Logged Binding.ResolutionError Binding.Table := do
  Logged.emit (resolveStarted tree)
  for site in Binding.reboundSites tree do
    Logged.emit (reboundVariable site)
  match Binding.resolve tree with
  | .error error =>
    Logged.emit (resolveFailed error)
    throw error
  | .ok table =>
    Logged.emit (resolveDone tree table)
    return table

end EventQuery.Analysis
