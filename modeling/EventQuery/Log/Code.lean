/- The codes that log events carry. Every code of a fault has a record that classifies it;
success and generic codes have none and are classified by their first letter. -/

set_option autoImplicit false

namespace EventQuery

inductive Severity where
  | critical
  | high
  | medium
  | low
  deriving DecidableEq

def Severity.name : Severity → String
  | critical => "Critical"
  | high => "High"
  | medium => "Medium"
  | low => "Low"

structure Code where
  text : String
  deriving DecidableEq, Inhabited

namespace Code

def internalError : Code := ⟨"ERR001"⟩
def initializationFailure : Code := ⟨"ERR002"⟩
def invalidSettings : Code := ⟨"E001"⟩
def unreadableSettings : Code := ⟨"E002"⟩
def fileNotFound : Code := ⟨"E005"⟩
def invalidExtension : Code := ⟨"E006"⟩
def fileTooLarge : Code := ⟨"E007"⟩
def emptyFile : Code := ⟨"E008"⟩
def permissionDenied : Code := ⟨"E009"⟩
def invalidEncoding : Code := ⟨"E010"⟩
def readFailure : Code := ⟨"E011"⟩
def invalidPath : Code := ⟨"E012"⟩
def tooManyLines : Code := ⟨"E013"⟩
def invalidCharacter : Code := ⟨"E020"⟩
def invalidNumber : Code := ⟨"E022"⟩
def identifierTooLong : Code := ⟨"E023"⟩
def commentTooLong : Code := ⟨"E026"⟩
def tooManyTokens : Code := ⟨"E027"⟩
def nestingTooDeep : Code := ⟨"E028"⟩
def unterminatedStream : Code := ⟨"E040"⟩
def unexpectedToken : Code := ⟨"E050"⟩
def undefinedVariable : Code := ⟨"E110"⟩
def reboundVariable : Code := ⟨"W110"⟩
def completed : Code := ⟨"I001"⟩
def loggingReady : Code := ⟨"I004"⟩
def fileLoaded : Code := ⟨"I006"⟩
def tokenized : Code := ⟨"I020"⟩
def parsed : Code := ⟨"I040"⟩
def resolved : Code := ⟨"I060"⟩
def warning : Code := ⟨"W000"⟩
def info : Code := ⟨"I000"⟩
def debug : Code := ⟨"D000"⟩

/-- How a fault is classified, and what is to be done about it. -/
structure Record where
  category : String
  severity : Severity
  recoverable : Bool
  description : String
  action : String

def registry : List (Code × Record) :=
  [
    (internalError, ⟨"System", .critical, false,
      "Critical internal error",
      "File a bug report with the input that triggered it"⟩),
    (initializationFailure, ⟨"System", .critical, false,
      "Logging or configuration could not be initialized",
      "Check the runtime configuration and environment"⟩),
    (invalidSettings, ⟨"Configuration", .high, false,
      "Configuration file is not valid TOML or has unknown values",
      "Fix the reported key in the configuration file"⟩),
    (unreadableSettings, ⟨"Configuration", .high, false,
      "Configuration file could not be read",
      "Check that the configuration path exists and is readable"⟩),
    (fileNotFound, ⟨"FileProcessing", .high, false,
      "Query file does not exist",
      "Check the file path"⟩),
    (invalidExtension, ⟨"FileProcessing", .medium, false,
      "Query file does not use the .cepl extension",
      "Rename the file or disable the extension requirement"⟩),
    (fileTooLarge, ⟨"FileProcessing", .high, false,
      "Query file exceeds the maximum size",
      "Split the query or reduce its size"⟩),
    (emptyFile, ⟨"FileProcessing", .medium, false,
      "Query file is empty",
      "Write a query into the file"⟩),
    (permissionDenied, ⟨"FileProcessing", .high, false,
      "Query file is not readable",
      "Check file permissions"⟩),
    (invalidEncoding, ⟨"FileProcessing", .high, false,
      "Query file is not valid UTF-8",
      "Re-save the file as UTF-8"⟩),
    (readFailure, ⟨"FileProcessing", .high, false,
      "I/O failure while reading the query file",
      "Retry or check the underlying storage"⟩),
    (invalidPath, ⟨"FileProcessing", .high, false,
      "Path is empty or does not name a regular file",
      "Pass the path of a query file"⟩),
    (tooManyLines, ⟨"FileProcessing", .high, false,
      "Query file has more lines than allowed",
      "Reduce the number of lines in the query"⟩),
    (invalidCharacter, ⟨"Lexical", .high, false,
      "Character that cannot start any token",
      "Remove or replace the character"⟩),
    (invalidNumber, ⟨"Lexical", .high, false,
      "Malformed or oversized numeric literal",
      "Write the number as digits with an optional fraction and exponent"⟩),
    (identifierTooLong, ⟨"Lexical", .medium, false,
      "Identifier longer than the allowed maximum",
      "Shorten the relation, variable or property name"⟩),
    (commentTooLong, ⟨"Lexical", .low, false,
      "Comment longer than the allowed maximum",
      "Shorten the comment"⟩),
    (tooManyTokens, ⟨"Lexical", .high, false,
      "Query produces more tokens than allowed",
      "Split the query into smaller ones"⟩),
    (nestingTooDeep, ⟨"Lexical", .high, false,
      "Parentheses nested deeper than allowed",
      "Remove redundant parentheses"⟩),
    (unterminatedStream, ⟨"Syntax", .critical, false,
      "Token stream does not end with an end-of-input token",
      "File a bug report; the lexer always appends one"⟩),
    (unexpectedToken, ⟨"Syntax", .high, false,
      "Token does not fit the query grammar at this position",
      "Check the query near the reported position"⟩),
    (undefinedVariable, ⟨"References", .high, false,
      "Filter refers to a variable that no relation binds",
      "Bind the variable with `Relation as name` or fix the spelling"⟩),
    (reboundVariable, ⟨"References", .low, true,
      "Variable name bound to more than one relation",
      "Use distinct variable names if the relations are unrelated"⟩)
  ]

def record? (c : Code) : Option Record := registry.lookup c

def severity (c : Code) : Severity := (c.record?.map (·.severity)).getD .medium

def recoverable (c : Code) : Bool := (c.record?.map (·.recoverable)).getD true

/-- Processing stops at a fault that cannot be recovered from. -/
def requiresHalt (c : Code) : Bool := (c.record?.map (!·.recoverable)).getD false

def description (c : Code) : String := (c.record?.map (·.description)).getD "Unknown error"

def action (c : Code) : String :=
  (c.record?.map (·.action)).getD "No specific action available"

def category (c : Code) : String :=
  match c.record? with
  | some record => record.category
  | none =>
    match c.text.toList with
    | 'I' :: _ => "Success"
    | 'W' :: _ => "Warning"
    | 'D' :: _ => "Debug"
    | _ => "Unknown"

end Code

end EventQuery
