import EventQuery.Analysis.Report
import EventQuery.CommandLine.Arguments
import EventQuery.Query.Print
import EventQuery.Settings.File

set_option autoImplicit false

namespace EventQuery.CommandLine

/-- The exit code, the text for the output, and the events and the report for the error output. -/
structure Outcome where
  exitCode : Nat
  output : String
  log : LogSettings
  events : List Event
  report : String

/-- An event on a line of its own. -/
def eventLine (lib : Json.Library) (log : LogSettings) (timestamp : String) (e : Event) : String :=
  (if log.structured then lib.render (e.toJson lib timestamp) else e.format) ++ "\n"

/-- The lines of the events, if they are to be seen at all. -/
def logText (lib : Json.Library) (log : LogSettings) (timestamp : String) (events : List Event) :
    String :=
  if log.console then String.join (events.map (eventLine lib log timestamp)) else ""

/-- The text for the error output: events first, then the report. -/
def Outcome.errorOutput (lib : Json.Library) (o : Outcome) (timestamp : String) : String :=
  logText lib o.log timestamp o.events ++ o.report

def versionText : String := "cepl 0.1.0\n"

def headText : String :=
  "Complex Event Processing Language parser\n\nUsage: cepl [OPTIONS] <FILE>\n\n"

/-- The options with what they do, and what each of their values means. -/
def optionHelp : List (String × String × List (String × String)) :=
  [("      --format <FORMAT>",
      "Output format (defaults to the configured format, tree otherwise)",
      [("tree", "Indented tree, one node per line"),
        ("sexpr", "Single-line `KIND(child, ...)` form"), ("json", "Serialized AST")]),
    ("      --tokens", "Print the significant token stream before the tree", []),
    ("      --no-variables", "Do not print the resolved variable table", []),
    ("      --config <CONFIG>", "TOML file with runtime preferences", []),
    ("      --log-level <LOG_LEVEL>", "Minimum log level: error, warning, info or debug", []),
    ("      --structured-logs", "Emit log events as JSON lines on stderr", [])]

def padRight (width : Nat) (text : String) : String :=
  text ++ String.ofList (List.replicate (width - text.length) ' ')

/-- The options in a line each. -/
def briefHelp : String :=
  let listed (values : List String) : String :=
    if values.isEmpty then "" else " [possible values: " ++ ", ".intercalate values ++ "]"
  let line (option text : String) (values : List String) : String :=
    padRight 31 option ++ text ++ listed values ++ "\n"
  headText ++ "Arguments:\n  <FILE>  Path to the query file\n\nOptions:\n" ++
    String.join (optionHelp.map fun (option, text, choices) =>
      line option text (choices.map (·.1))) ++
    line "  -h, --help" "Print help (see more with '--help')" [] ++
    line "  -V, --version" "Print version" []

/-- The options in a paragraph each, with their values. -/
def fullHelp : String :=
  let indent := "          "
  let values (choices : List (String × String)) : String :=
    if choices.isEmpty then ""
    else "\n" ++ indent ++ "Possible values:\n" ++ String.join (choices.map fun (name, text) =>
      indent ++ "- " ++ padRight 7 (name ++ ":") ++ text ++ "\n")
  let paragraph (option text : String) (choices : List (String × String)) : String :=
    option ++ "\n" ++ indent ++ text ++ "\n" ++ values choices
  headText ++ "Arguments:\n" ++ paragraph "  <FILE>" "Path to the query file" [] ++
    "\nOptions:\n" ++ "\n".intercalate
      (optionHelp.map (fun (option, text, choices) => paragraph option text choices) ++
        [paragraph "  -h, --help" "Print help (see a summary with '-h')" [],
          paragraph "  -V, --version" "Print version" []])

def usageText : String :=
  "error: invalid arguments\n\nUsage: cepl [OPTIONS] <FILE>\n\n" ++
    "For more information, try '--help'.\n"

def padLeft (width : Nat) (text : String) : String :=
  String.ofList (List.replicate (width - text.length) ' ') ++ text

def tokenLine (t : Located Token) : String :=
  "  " ++ padLeft 8 t.span.start.render ++ "  " ++ t.value.display ++ "\n"

def tokenListing (stream : TokenStream) : String :=
  "tokens:\n" ++ String.join (stream.significant.map tokenLine) ++ "\n"

def variableListing (table : Binding.Table) : String :=
  "\nvariables:\n" ++ String.join (table.listing.map (· ++ "\n"))

section Running

variable (lib : Json.Library)

/-- The query and its variables as one document. -/
def document (report : Report) : Json :=
  lib.record [("ast", report.tree.toJson lib), ("variables", report.table.toJson lib)]

/-- A document holds the variables. The other formats are followed by their listing. -/
def render (settings : OutputSettings) (report : Report) : String :=
  let tokens := if settings.showTokens then tokenListing report.stream else ""
  let listing :=
    if settings.showVariables && !report.table.isEmpty then variableListing report.table
    else ""
  tokens ++ match settings.format with
    | .tree => report.tree.indented ++ listing
    | .inline => report.tree.inline ++ "\n" ++ listing
    | .document => lib.renderPretty (document lib report) ++ "\n"

/-- The excerpt of the file with the fault, or the fault alone where it has no place or the file
cannot be read. -/
def faultReport (look : Document.FileSystem) (path : String) (error : AnalysisError) : String :=
  let alone := "error: " ++ error.message ++ "\n"
  let shown := match error.span?, (look path).readText with
    | some span, .ok text => (SourceText.ofString path text).excerpt span error.innerMessage
    | _, _ => alone
  shown ++ "[" ++ error.code.text ++ "] " ++ error.stage ++ " failed\n"

/-- The settings of the environment, of the settings file and of the arguments. -/
def chosenSettings (env : Environment) (look : Document.FileSystem) (a : Arguments) :
    Except SettingsError Settings := do
  let usual := env.settings
  let chosen ← match a.settingsFile with
    | none => pure usual
    | some path => usual.load look path
  return a.apply chosen

def loggingReady : Event := Event.success .loggingReady "Global logging system initialized"

/-- Analyses a file and shows what was found. -/
def runFile (settings : Settings) (elapsed : Nat) (look : Document.FileSystem) (path : String) :
    Outcome :=
  let journal := (Journal.empty settings.log.least settings.log.tagsFiles).record loggingReady
  let (result, after) := (Analysis.ofFile settings elapsed look path).run journal
  match result with
  | .ok report => ⟨0, render lib settings.output report, settings.log, after.entries, ""⟩
  | .error error => ⟨1, "", settings.log, after.entries, faultReport look path error⟩

/-- The outcome of a call. `elapsed` is the time taken, in nanoseconds. -/
def run (env : Environment) (look : Document.FileSystem) (elapsed : Nat)
    (arguments : List String) : Outcome :=
  match read arguments with
  | .version => ⟨0, versionText, env.logSettings, [], ""⟩
  | .help brief => ⟨0, if brief then briefHelp else fullHelp, env.logSettings, [], ""⟩
  | .misuse => ⟨2, "", env.logSettings, [], usageText⟩
  | .run file a =>
    match chosenSettings env look a with
    | .ok settings => runFile lib settings elapsed look file
    | .error error => ⟨1, "", env.logSettings, [], "Error: " ++ error.message ++ "\n"⟩

end Running

end EventQuery.CommandLine
