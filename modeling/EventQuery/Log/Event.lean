import EventQuery.Json.Library
import EventQuery.Log.Code
import EventQuery.Source.Text

set_option autoImplicit false

namespace EventQuery

/-- The first levels are the most severe ones. -/
inductive Level where
  | error
  | warning
  | info
  | debug
  deriving DecidableEq, Inhabited

namespace Level

def all : List Level := [error, warning, info, debug]

def name : Level → String
  | error => "ERROR"
  | warning => "WARN"
  | info => "INFO"
  | debug => "DEBUG"

def rank : Level → Nat
  | error => 0
  | warning => 1
  | info => 2
  | debug => 3

/-- Whether a log of level `least` takes events of this level. -/
def reaches (level least : Level) : Bool := level.rank ≤ least.rank

end Level

/-- Named values, ordered by name. -/
abbrev Context := List (String × String)

/-- A later value of a name replaces the earlier one. -/
def Context.put (key value : String) : Context → Context
  | [] => [(key, value)]
  | (k, v) :: rest =>
    if key = k then (key, value) :: rest
    else if key < k then (key, value) :: (k, v) :: rest
    else (k, v) :: Context.put key value rest

def Context.putAll (entries : List (String × String)) (context : Context) : Context :=
  entries.foldl (fun c entry => Context.put entry.1 entry.2 c) context

structure Event where
  level : Level
  code : Code
  message : String
  span : Option Span
  context : Context
  deriving DecidableEq

namespace Event

def maxMessageBytes : Nat := 4096

/-- The longest part from the start that has at most `limit` bytes. -/
def fitting (limit : Nat) : List Char → List Char
  | [] => []
  | c :: rest => if c.utf8Size ≤ limit then c :: fitting (limit - c.utf8Size) rest else []

/-- Cuts a message that is too long. -/
def truncate (message : String) : String :=
  if message.utf8ByteSize ≤ maxMessageBytes then message
  else String.ofList (fitting maxMessageBytes message.toList) ++ "..."

def make (level : Level) (code : Code) (message : String) : Event :=
  ⟨level, code, truncate message, none, []⟩

def error (code : Code) (message : String) : Event := make .error code message

def warning (code : Code) (message : String) : Event := make .warning code message

def info (message : String) : Event := make .info .info message

def success (code : Code) (message : String) : Event := make .info code message

def debug (message : String) : Event := make .debug .debug message

def at? (e : Event) (span : Option Span) : Event := { e with span }

def adding (e : Event) (entries : List (String × String)) : Event :=
  { e with context := e.context.putAll entries }

/-- One line: level, code and message, the place, and the named values in braces. -/
def format (e : Event) : String :=
  let place := match e.span with
    | some span => " at " ++ span.render
    | none => ""
  let values :=
    if e.context.isEmpty then ""
    else " \x7b" ++ ", ".intercalate (e.context.map fun v => v.1 ++ "=" ++ v.2) ++ "\x7d"
  "[" ++ e.level.name ++ "] " ++ e.code.text ++ " - " ++ e.message ++ place ++ values

section Documents

variable (lib : Json.Library)

def metadataJson (code : Code) : Json :=
  lib.record
    [("description", lib.string code.description), ("recommended_action", lib.string code.action),
      ("recoverable", .bool code.recoverable), ("requires_halt", .bool code.requiresHalt)]

def placeJson (span : Span) : Json :=
  lib.record
    [("end_column", lib.nat span.stop.column.toNat), ("end_line", lib.nat span.stop.line.toNat),
      ("start_column", lib.nat span.start.column.toNat),
      ("start_line", lib.nat span.start.line.toNat)]

/-- The event as a document with its keys in order. Errors also carry the record of their code. -/
def toJson (timestamp : String) (e : Event) : Json :=
  let context :=
    if e.context.isEmpty then []
    else [("context", lib.record (e.context.map fun v => (v.1, lib.string v.2)))]
  let metadata :=
    if e.level = .error then [("error_metadata", metadataJson lib e.code)] else []
  let place := match e.span with
    | some span => [("span", placeJson lib span)]
    | none => []
  lib.record
    ([("category", lib.string e.code.category), ("code", lib.string e.code.text)] ++ context ++
      metadata ++ [("level", lib.string e.level.name), ("message", lib.string e.message),
        ("severity", lib.string e.code.severity.name)] ++ place ++
      [("timestamp", lib.string timestamp)])

end Documents

end Event

end EventQuery
