import EventQuery.Settings.Basic

set_option autoImplicit false

namespace EventQuery.CommandLine

structure Arguments where
  file : Option String
  format : Option OutputFormat
  tokens : Bool
  hideVariables : Bool
  settingsFile : Option String
  level : Option Level
  structured : Bool
  deriving DecidableEq

def Arguments.none : Arguments := ⟨.none, .none, false, false, .none, .none, false⟩

/-- What a call asks for. -/
inductive Request where
  | run (file : String) (arguments : Arguments)
  | version
  | help (brief : Bool)
  | misuse
  deriving DecidableEq

/-- Options that take a value. -/
inductive ValueOption where
  | format
  | settingsFile
  | level

/-- What an option is by its name: one with a value, a flag, or a request of its own. -/
inductive OptionKind where
  | valued (option : ValueOption)
  | flag (set : Arguments → Option Arguments)
  | request (request : Request)

/-- Sets a flag that is not set yet. -/
def setOnce (isSet : Bool) (changed : Arguments) : Option Arguments :=
  if isSet then Option.none else some changed

def optionOf? (name : String) : Option OptionKind :=
  if name = "format" then some (.valued .format)
  else if name = "config" then some (.valued .settingsFile)
  else if name = "log-level" then some (.valued .level)
  else if name = "tokens" then some (.flag fun a => setOnce a.tokens { a with tokens := true })
  else if name = "no-variables" then
    some (.flag fun a => setOnce a.hideVariables { a with hideVariables := true })
  else if name = "structured-logs" then
    some (.flag fun a => setOnce a.structured { a with structured := true })
  else if name = "version" then some (.request .version)
  else if name = "help" then some (.request (.help false))
  else Option.none

/-- Gives an option its value, which must be one that the option knows. -/
def setValue (option : ValueOption) (value : String) (a : Arguments) : Option Arguments :=
  match option with
  | .format =>
    (OutputFormat.ofName? value).bind fun f =>
      setOnce a.format.isSome { a with format := some f }
  | .settingsFile =>
    if value.isEmpty then Option.none
    else setOnce a.settingsFile.isSome { a with settingsFile := some value }
  | .level =>
    (Level.ofText? value).bind fun l => setOnce a.level.isSome { a with level := some l }

def setFile (file : String) (a : Arguments) : Option Arguments :=
  if file.isEmpty then Option.none else setOnce a.file.isSome { a with file := some file }

/-- Arguments behind a double dash are files. -/
def readFiles (a : Arguments) : List String → Request
  | [] =>
    match a.file with
    | some file => .run file a
    | Option.none => .misuse
  | file :: rest =>
    match setFile file a with
    | some changed => readFiles changed rest
    | Option.none => .misuse

/-- A dash and at least one more character make an argument an option. -/
def looksLikeOption : List Char → Bool
  | '-' :: _ :: _ => true
  | _ => false

/-- The name of an option and, behind an equals sign, its value. -/
def splitValue (text : List Char) : String × Option String :=
  let name := String.ofList (text.takeWhile (· ≠ '='))
  match text.dropWhile (· ≠ '=') with
  | _ :: value => (name, some (String.ofList value))
  | [] => (name, Option.none)

/-- Reads one argument after the other. The first that does not fit, or that is a request of its
own, decides. -/
def readFrom (a : Arguments) : List String → Request
  | [] => readFiles a []
  | argument :: rest =>
    match argument.toList with
    | ['-', '-'] => readFiles a rest
    | '-' :: '-' :: text =>
      let (name, value) := splitValue text
      match optionOf? name, value, rest with
      | some (.valued option), some value, rest =>
        match setValue option value a with
        | some changed => readFrom changed rest
        | Option.none => .misuse
      | some (.valued option), Option.none, value :: rest =>
        if looksLikeOption value.toList then .misuse
        else match setValue option value a with
          | some changed => readFrom changed rest
          | Option.none => .misuse
      | some (.flag set), Option.none, rest =>
        match set a with
        | some changed => readFrom changed rest
        | Option.none => .misuse
      | some (.request request), Option.none, _ => request
      | _, _, _ => .misuse
    | '-' :: 'V' :: _ => .version
    | '-' :: 'h' :: _ => .help true
    | '-' :: _ :: _ => .misuse
    | _ =>
      match setFile argument a with
      | some changed => readFrom changed rest
      | Option.none => .misuse

def read (arguments : List String) : Request := readFrom .none arguments

/-- The files that are to be read. -/
def Request.paths : Request → List String
  | .run file a => file :: a.settingsFile.toList
  | _ => []

/-- Arguments go before the settings of files and of the environment. -/
def Arguments.apply (a : Arguments) (s : Settings) : Settings :=
  { s with
    output :=
      { format := a.format.getD s.output.format
        showTokens := a.tokens || s.output.showTokens
        showVariables := !a.hideVariables && s.output.showVariables }
    log :=
      { s.log with
        least := a.level.getD s.log.least
        structured := a.structured || s.log.structured } }

end EventQuery.CommandLine
