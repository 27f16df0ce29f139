import EventQuery.Document.Directory
import EventQuery.Settings.Basic
import EventQuery.Toml.Reader

/- Settings in TOML files. Tables and keys that are missing keep their defaults, and other keys
are ignored. A table may also be an array of its values in order. -/

set_option autoImplicit false

namespace EventQuery

open Toml (Entries)

namespace Settings

/-- A value under a name or at a place, or the default where it is missing. -/
def readField {α : Type} (read : Toml → Option α) (usual : α) : Option Toml → Option α
  | none => some usual
  | some value => read value

def readFlag : Toml → Option Bool
  | .boolean value => some value
  | _ => none

/-- A name may stand alone, or as the only key of a table with an empty value. -/
def readName : Toml → Option String
  | .string name => some name
  | .table _ [(name, .table _ [])] | .table _ [(name, .array [])] => some name
  | _ => none

def readLevel (value : Toml) : Option Level :=
  (readName value).bind fun name => Level.all.find? (·.title = name)

def readFormat (value : Toml) : Option OutputFormat := (readName value).bind OutputFormat.ofName?

/-- The values of a group of settings by the names of the group. A date has none of them. -/
def groupValues (names : List String) : Toml → Option (List (Option Toml))
  | .table _ entries => some (names.map fun name => entries.lookup name)
  | .array values => some ((List.range names.length).map fun i => values[i]?)
  | .rows tables =>
    some ((List.range names.length).map fun i => tables[i]?.map (.table .header))
  | .date _ => some (names.map fun _ => none)
  | _ => none

def readFiles (usual : FileSettings) (value : Toml) : Option FileSettings := do
  match ← groupValues ["require_cepl_extension", "enable_performance_logging"] value with
  | [extension, measures] =>
    return ⟨← readField readFlag usual.requireExtension extension,
      ← readField readFlag usual.reportMeasures measures⟩
  | _ => none

def readCounting (usual : Counting) (value : Toml) : Option Counting := do
  match ← groupValues ["collect_detailed_metrics", "include_trivia_in_counts"] value with
  | [detailed, trivia] =>
    return ⟨← readField readFlag usual.detailed detailed, ← readField readFlag usual.trivia trivia⟩
  | _ => none

def readLog (usual : LogSettings) (value : Toml) : Option LogSettings := do
  match ← groupValues ["use_structured_logging", "enable_console_logging", "min_log_level",
      "include_file_context"] value with
  | [structured, console, least, tagsFiles] =>
    return ⟨← readField readFlag usual.structured structured,
      ← readField readFlag usual.console console, ← readField readLevel usual.least least,
      ← readField readFlag usual.tagsFiles tagsFiles⟩
  | _ => none

def readOutput (usual : OutputSettings) (value : Toml) : Option OutputSettings := do
  match ← groupValues ["format", "show_tokens", "show_variables"] value with
  | [format, tokens, table] =>
    return ⟨← readField readFormat usual.format format,
      ← readField readFlag usual.showTokens tokens,
      ← readField readFlag usual.showVariables table⟩
  | _ => none

def ofEntries? (usual : Settings) (entries : Entries) : Option Settings := do
  return ⟨← readField (readFiles usual.files) usual.files (entries.lookup "file_processor"),
    ← readField (readCounting usual.counting) usual.counting (entries.lookup "lexical"),
    ← readField (readLog usual.log) usual.log (entries.lookup "logging"),
    ← readField (readOutput usual.output) usual.output (entries.lookup "output")⟩

/-- The settings that a file's text chooses. -/
def ofText? (usual : Settings) (text : String) : Option Settings :=
  (Toml.read? text.toList).bind usual.ofEntries?

def flagLine (name : String) (value : Bool) : String :=
  name ++ " = " ++ (if value then "true" else "false") ++ "\n"

def nameLine (name value : String) : String := name ++ " = \"" ++ value ++ "\"\n"

/-- A file with all settings. -/
def toText (s : Settings) : String :=
  "[file_processor]\n" ++
    flagLine "require_cepl_extension" s.files.requireExtension ++
    flagLine "enable_performance_logging" s.files.reportMeasures ++
  "\n[lexical]\n" ++
    flagLine "collect_detailed_metrics" s.counting.detailed ++
    flagLine "include_trivia_in_counts" s.counting.trivia ++
  "\n[logging]\n" ++
    flagLine "use_structured_logging" s.log.structured ++
    flagLine "enable_console_logging" s.log.console ++
    nameLine "min_log_level" s.log.least.title ++
    flagLine "include_file_context" s.log.tagsFiles ++
  "\n[output]\n" ++
    nameLine "format" s.output.format.name ++
    flagLine "show_tokens" s.output.showTokens ++
    flagLine "show_variables" s.output.showVariables

end Settings

/-- Why settings cannot be taken from a file. -/
inductive SettingsError where
  | unreadable (path reason : String)
  | malformed
  deriving DecidableEq

namespace SettingsError

def code : SettingsError → Code
  | unreadable _ _ => .unreadableSettings
  | malformed => .invalidSettings

def message : SettingsError → String
  | unreadable path reason => "Cannot read configuration file " ++ path ++ ": " ++ reason
  | malformed => "Invalid configuration: not a document of settings"

end SettingsError

namespace Settings

def read (usual : Settings) (text : String) : Except SettingsError Settings :=
  match usual.ofText? text with
  | some settings => .ok settings
  | none => .error .malformed

/-- The settings in the file at a path. -/
def load (usual : Settings) (look : Document.FileSystem) (path : String) :
    Except SettingsError Settings :=
  match (look path).readText with
  | .ok text => usual.read text
  | .error reason => .error (.unreadable path reason)

end Settings

end EventQuery
