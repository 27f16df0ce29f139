import EventQuery.CommandLine.Run
import EventQuery.Log.Timestamp

set_option autoImplicit false

namespace EventQuery

/-- What keeps a path from being followed. The system numbers its errors from zero up or down. -/
def obstacle : IO.Error → Document.Lookup
  | .permissionDenied _ _ _ => .barred
  | .inappropriateType _ code _ =>
    if min code.toNat (UInt32.size - code.toNat) = 20 then .throughFile else .directory
  | .invalidArgument _ code _ =>
    if min code.toNat (UInt32.size - code.toNat) = 36 then .nameTooLong else .missing
  | _ => .missing

/-- What keeps a file from being read that a path leads to. -/
def refusal : IO.Error → Document.Refusal
  | .noFileOrDirectory _ _ _ => .gone
  | .permissionDenied _ _ _ => .denied
  | e => .failing (toString e)

/-- Reads what is no directory. -/
def readFound (path place : String) (found : IO.FS.Metadata) : IO Document.Lookup := do
  try
    let content ← IO.FS.readBinFile path
    if found.type matches .file then return .file place found.byteSize.toNat content
    return .device content
  catch e => return .unreadable place found.byteSize.toNat (refusal e)

/-- What is found at a path. -/
def lookUp (path : String) : IO Document.Lookup := do
  if path.isEmpty then return .missing
  if path.toList.contains '\x00' then return .nulInName
  try
    let place ← IO.FS.realPath path
    let found ← place.metadata
    if found.type matches .dir then return .directory
    readFound path place.toString found
  catch e => return obstacle e

def variableNames : List String :=
  ["CEPL_REQUIRE_CEPL_EXTENSION", "CEPL_ENABLE_PERFORMANCE_LOGGING",
    "CEPL_LEXICAL_DETAILED_METRICS", "CEPL_LEXICAL_INCLUDE_TRIVIA",
    "CEPL_LOGGING_USE_STRUCTURED", "CEPL_LOGGING_ENABLE_CONSOLE", "CEPL_LOGGING_MIN_LEVEL",
    "CEPL_LOGGING_INCLUDE_FILE_CONTEXT", "CEPL_OUTPUT_FORMAT", "CEPL_OUTPUT_SHOW_TOKENS",
    "CEPL_OUTPUT_SHOW_VARIABLES"]

def readEnvironment : IO Environment := do
  let found ← variableNames.mapM fun name => return (name, ← IO.getEnv name)
  return found.filterMap fun (name, value) => value.map (name, ·)

/-- The present moment, taken from a file that has just been made. -/
def now : IO String := do
  let (_, path) ← IO.FS.createTempFile
  let moment := (← path.metadata).modified
  IO.FS.removeFile path
  return Timestamp.render moment.sec (moment.nsec.toNat / 1000000)

/-- Runs a call, once for its result and once more to report the time that it took. -/
def execute (arguments : List String) : IO UInt32 := do
  let env ← readEnvironment
  let found ← (CommandLine.read arguments).paths.mapM fun path => return (path, ← lookUp path)
  let look : Document.FileSystem := fun path => (found.lookup path).getD .missing
  let started ← IO.monoNanosNow
  let _ ← IO.lazyPure fun _ => (CommandLine.run Json.reference env look 0 arguments).exitCode
  let elapsed := (← IO.monoNanosNow) - started
  let outcome := CommandLine.run Json.reference env look elapsed arguments
  IO.print outcome.output
  let timestamp ← if outcome.log.structured then now else pure ""
  IO.eprint (outcome.errorOutput Json.reference timestamp)
  return UInt32.ofNat outcome.exitCode

end EventQuery

def main (arguments : List String) : IO UInt32 := EventQuery.execute arguments
