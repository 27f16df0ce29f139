import EventQuery.Lexeme.Tally
import EventQuery.Log.Memory
import EventQuery.Text.Lowercase

set_option autoImplicit false

namespace EventQuery

/-- The name of a level in settings. -/
def Level.title : Level → String
  | error => "Error"
  | warning => "Warning"
  | info => "Info"
  | debug => "Debug"

/-- A level by its name in any case, or by its number. -/
def Level.ofText? (text : String) : Option Level :=
  let lowered := String.ofList (Text.lower text.toList)
  if lowered = "error" ∨ lowered = "0" then some .error
  else if lowered = "warning" ∨ lowered = "warn" ∨ lowered = "1" then some .warning
  else if lowered = "info" ∨ lowered = "2" then some .info
  else if lowered = "debug" ∨ lowered = "3" then some .debug
  else none

/-- How a query is shown: one node a line, on one line, or as a document. -/
inductive OutputFormat where
  | tree
  | inline
  | document
  deriving DecidableEq, Inhabited

namespace OutputFormat

def all : List OutputFormat := [tree, inline, document]

def name : OutputFormat → String
  | tree => "tree"
  | inline => "sexpr"
  | document => "json"

def ofName? (text : String) : Option OutputFormat := all.find? (·.name = text)

/-- A format by its name in any case. -/
def ofText? (text : String) : Option OutputFormat :=
  ofName? (String.ofList (Text.lower text.toList))

end OutputFormat

/-- Which files are taken, and whether their measures are reported. -/
structure FileSettings where
  requireExtension : Bool
  reportMeasures : Bool
  deriving DecidableEq

structure LogSettings where
  structured : Bool
  console : Bool
  least : Level
  tagsFiles : Bool
  deriving DecidableEq

structure OutputSettings where
  format : OutputFormat
  showTokens : Bool
  showVariables : Bool
  deriving DecidableEq

structure Settings where
  files : FileSettings
  counting : Counting
  log : LogSettings
  output : OutputSettings
  deriving DecidableEq

/-- Variables with their values. -/
abbrev Environment := List (String × String)

namespace Environment

/-- A flag is written `true` or `false`. -/
def flag (env : Environment) (name : String) (usual : Bool) : Bool :=
  match env.lookup name with
  | some "true" => true
  | some "false" => false
  | _ => usual

def fileSettings (env : Environment) : FileSettings :=
  { requireExtension := env.flag "CEPL_REQUIRE_CEPL_EXTENSION" false
    reportMeasures := env.flag "CEPL_ENABLE_PERFORMANCE_LOGGING" true }

def counting (env : Environment) : Counting :=
  { detailed := env.flag "CEPL_LEXICAL_DETAILED_METRICS" true
    trivia := env.flag "CEPL_LEXICAL_INCLUDE_TRIVIA" false }

def logSettings (env : Environment) : LogSettings :=
  { structured := env.flag "CEPL_LOGGING_USE_STRUCTURED" false
    console := env.flag "CEPL_LOGGING_ENABLE_CONSOLE" true
    least := ((env.lookup "CEPL_LOGGING_MIN_LEVEL").bind Level.ofText?).getD .warning
    tagsFiles := env.flag "CEPL_LOGGING_INCLUDE_FILE_CONTEXT" true }

def outputSettings (env : Environment) : OutputSettings :=
  { format := ((env.lookup "CEPL_OUTPUT_FORMAT").bind OutputFormat.ofText?).getD .tree
    showTokens := env.flag "CEPL_OUTPUT_SHOW_TOKENS" false
    showVariables := env.flag "CEPL_OUTPUT_SHOW_VARIABLES" true }

/-- The settings of a user who has not chosen anything. -/
def settings (env : Environment) : Settings :=
  ⟨env.fileSettings, env.counting, env.logSettings, env.outputSettings⟩

end Environment

namespace LogSettings

def flagText (flag : Bool) : String := if flag then "true" else "false"

def summary (s : LogSettings) : String :=
  "Logging Configuration:\n- Min log level: " ++ s.least.title ++
    "\n- Structured logging: " ++ flagText s.structured ++
    "\n- Console logging: " ++ flagText s.console ++
    "\n- Include file context: " ++ flagText s.tagsFiles ++
    "\n- Buffer size: " ++ toString logCapacity

end LogSettings

end EventQuery
