import EventQuery.Decimal.Format
import EventQuery.Document.Directory
import EventQuery.Document.Size
import EventQuery.Log.Journal
import EventQuery.Settings.Basic
import EventQuery.Text.Blank
import EventQuery.Text.Lowercase
import EventQuery.Text.Quoted

/- Loading query files. A file is refused for its path first, then for its size and extension,
and last for its content. -/

set_option autoImplicit false

namespace EventQuery

inductive LoadError where
  | notFound (path : String)
  | invalidExtension (found : Option String)
  | tooLarge (size : Nat)
  | empty (path : String)
  | permissionDenied (path : String)
  | invalidEncoding (path : String)
  | failure (action path reason : String)
  | invalidPath (path : String)
  | tooManyLines (lines : Nat)
  deriving DecidableEq

namespace Document

def maxFileBytes : Nat := 1024 * 1024

def maxLines : Nat := 50000

def queryExtension : String := "cepl"

/-- What is known of a file before it is read. -/
structure Metadata where
  path : String
  size : Nat
  extension : Option String
  deriving DecidableEq

def Metadata.isQueryFile (m : Metadata) : Bool := m.extension = some queryExtension

end Document

namespace LoadError

def optionText : Option String → String
  | some text => "Some(" ++ Text.quoted text ++ ")"
  | none => "None"

def message : LoadError → String
  | notFound path => "File not found: " ++ path
  | invalidExtension found =>
    "Invalid file extension: expected ." ++ Document.queryExtension ++ ", found " ++
      optionText found
  | tooLarge size =>
    "File too large: " ++ toString size ++ " bytes (max: " ++ toString Document.maxFileBytes ++ ")"
  | empty path => "File is empty: " ++ path
  | permissionDenied path => "Permission denied: " ++ path
  | invalidEncoding path => "Invalid UTF-8 encoding in file: " ++ path
  | failure action path reason =>
    "I/O error reading file: Failed to " ++ action ++ " '" ++ path ++ "': " ++ reason
  | invalidPath path => "Invalid file path: " ++ path
  | tooManyLines lines =>
    "File exceeds maximum line count: " ++ toString lines ++ " (max: " ++
      toString Document.maxLines ++ ")"

def code : LoadError → Code
  | notFound _ => .fileNotFound
  | invalidExtension _ => .invalidExtension
  | tooLarge _ => .fileTooLarge
  | empty _ => .emptyFile
  | permissionDenied _ => .permissionDenied
  | invalidEncoding _ => .invalidEncoding
  | failure _ _ _ => .readFailure
  | invalidPath _ => .invalidPath
  | tooManyLines _ => .tooManyLines

end LoadError

/-- A query file with its text. -/
structure Document where
  metadata : Document.Metadata
  text : String

namespace Document

/-- A line feed at the end begins no further line. -/
def lineCount (text : List Char) : Nat :=
  let feeds := text.count '\n'
  if text.isEmpty ∨ text.getLast? = some '\n' then feeds else feeds + 1

def lines (d : Document) : Nat := lineCount d.text.toList

def charCount (d : Document) : Nat := d.text.length

/-- Whether the file holds nothing but blanks. -/
def isBlank (d : Document) : Bool := d.text.toList.all Text.isBlank

/-- A file that is refused in the course of an action. -/
def refused (action path : String) : Refusal → LoadError
  | .gone => .notFound path
  | .denied => .permissionDenied path
  | .failing reason => .failure action path reason

/-- A file that has been found: its full path, its size, and its content unless that is refused. -/
structure Found where
  place : String
  size : Nat
  content : Except Refusal ByteArray

/-- The file that a path leads to. -/
def locate (look : FileSystem) (path : String) : Except LoadError Found :=
  if path.isEmpty then .error (.invalidPath "")
  else match look path with
    | .directory | .device _ => .error (.invalidPath path)
    | .unresolved refusal => .error (refused "resolve path" path refusal)
    | .unmeasured place refusal => .error (refused "read metadata of" place refusal)
    | .unreadable place size refusal => .ok ⟨place, size, .error refusal⟩
    | .file place size content => .ok ⟨place, size, .ok content⟩
    | .missing | .throughFile | .nameTooLong | .nulInName | .barred => .error (.notFound path)

def metadataOf (file : Found) : Metadata :=
  { path := file.place
    size := file.size
    extension := (extension? file.place).map fun e => String.ofList (Text.lower e.toList) }

/-- Checks what is known of a file before it is read. -/
def vet (settings : FileSettings) (m : Metadata) : Except LoadError Unit :=
  if maxFileBytes < m.size then .error (.tooLarge m.size)
  else if m.size = 0 then .error (.empty m.path)
  else if settings.requireExtension && !m.isQueryFile then .error (.invalidExtension m.extension)
  else .ok ()

def read (m : Metadata) : Except Refusal ByteArray → Except LoadError Document
  | .error refusal => .error (refused "read file" m.path refusal)
  | .ok content =>
    match String.fromUTF8? content with
    | none => .error (.invalidEncoding m.path)
    | some text =>
      let lines := lineCount text.toList
      if maxLines < lines then .error (.tooManyLines lines) else .ok ⟨m, text⟩

def startEvent (path : String) : Event :=
  (Event.debug "Starting file processing").adding [("file", path)]

def metadataEvent (m : Metadata) : Event :=
  (Event.debug "File metadata collected").adding
    [("size", humanSize m.size), ("extension", m.extension.getD "none"),
      ("is_cepl", if m.isQueryFile then "true" else "false")]

def failureEvent (path : String) (error : LoadError) : Event :=
  (Event.error error.code error.message).adding [("file", path)]

/-- A duration of so many nanoseconds in seconds. The whole seconds and the others are rounded
apart. -/
def seconds (nanoseconds : Nat) : Float :=
  let unit := 1000000000
  Float.ofNat (nanoseconds / unit) + Float.ofNat (nanoseconds % unit) / Float.ofNat unit

/-- A duration of so many seconds in milliseconds. -/
def milliseconds (places : Nat) (duration : Float) : String :=
  String.ofList (Decimal.fixedText places (duration * Float.ofNat 1000))

def loadedEvent (settings : FileSettings) (elapsed : Nat) (d : Document) : Event :=
  let measures :=
    if settings.reportMeasures then
      [("duration_ms", milliseconds 3 (seconds elapsed)), ("size", humanSize d.metadata.size),
        ("lines", toString d.lines), ("chars", toString d.charCount)]
    else []
  (Event.success .fileLoaded "File processed successfully").adding
    (("file", d.metadata.path) :: measures)

def reading (settings : FileSettings) (look : FileSystem) (path : String) :
    Logged LoadError Document := do
  let file ← locate look path
  let m := metadataOf file
  Logged.emit (metadataEvent m)
  let _ ← vet settings m
  read m file.content

/-- Loads the file that a path leads to. `elapsed` is the time taken, in nanoseconds. -/
def load (settings : FileSettings) (elapsed : Nat) (look : FileSystem) (path : String) :
    Logged LoadError Document := do
  Logged.emit (startEvent path)
  let document ← tryCatch (reading settings look path) fun error => do
    Logged.emit (failureEvent path error)
    throw error
  Logged.emit (loadedEvent settings elapsed document)
  return document

end Document

end EventQuery
