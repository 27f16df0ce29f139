import EventQuery.Log.Event

set_option autoImplicit false

namespace EventQuery

structure FileContext where
  path : String
  id : Nat
  deriving DecidableEq

/-- The events taken so far, the latest one first. `least` is the least severe level taken. -/
structure Journal where
  least : Level
  tagsFiles : Bool
  file : Option FileContext
  events : List Event

namespace Journal

def empty (least : Level) (tagsFiles : Bool) : Journal := ⟨least, tagsFiles, none, []⟩

/-- The values of the file replace values of the same names. -/
def tag (j : Journal) (e : Event) : Event :=
  match j.file with
  | some file =>
    if j.tagsFiles then e.adding [("file", file.path), ("file_id", toString file.id)] else e
  | none => e

def record (j : Journal) (e : Event) : Journal :=
  if e.level.reaches j.least then { j with events := j.tag e :: j.events } else j

/-- Takes an event without a tag. -/
def recordPlain (j : Journal) (e : Event) : Journal :=
  if e.level.reaches j.least then { j with events := e :: j.events } else j

/-- The events in the order in which they were taken. -/
def entries (j : Journal) : List Event := j.events.reverse

end Journal

/-- Work that gives a result or fails, and reports events in either case. -/
abbrev Logged (ε : Type) := ExceptT ε (StateM Journal)

namespace Logged

variable {ε α : Type}

def emit (e : Event) : Logged ε Unit := fun j => (.ok (), j.record e)

/-- Runs work with another file context and then brings back the one before. -/
def within (file : FileContext) (work : Logged ε α) : Logged ε α := fun j =>
  let (result, after) := work { j with file := some file }
  (result, { after with file := j.file })

def mapFault {δ : Type} (f : ε → δ) (work : Logged ε α) : Logged δ α := fun j =>
  let (result, after) := work j
  (result.mapError f, after)

end Logged

end EventQuery
