import EventQuery.Log.Event

set_option autoImplicit false

namespace EventQuery

/-- The number of events that are kept. -/
def logCapacity : Nat := 1000

/-- The latest event comes first. -/
structure MemoryLog where
  newest : List Event

namespace MemoryLog

def empty : MemoryLog := ⟨[]⟩

/-- Keeps an event. The oldest one gives way where the log is full. -/
def keep (log : MemoryLog) (e : Event) : MemoryLog := ⟨(e :: log.newest).take logCapacity⟩

/-- The kept events in the order in which they came. -/
def entries (log : MemoryLog) : List Event := log.newest.reverse

def count (log : MemoryLog) : Nat := log.newest.length

def countOf (log : MemoryLog) (level : Level) : Nat := log.newest.countP (·.level = level)

def holds (log : MemoryLog) (code : Code) : Bool := log.newest.any (·.code = code)

theorem count_keep_le (log : MemoryLog) (e : Event) : (log.keep e).count ≤ logCapacity := by
  simp only [count, keep, List.length_take]
  omega

end MemoryLog

structure LogService where
  least : Level
  memory : MemoryLog

namespace LogService

def takes (s : LogService) (level : Level) : Bool := level.reaches s.least

def log (s : LogService) (e : Event) : LogService :=
  if s.takes e.level then { s with memory := s.memory.keep e } else s

/-- Makes a service the one of the program. The first one stays. -/
def install (present : Option LogService) (s : LogService) : Except String LogService :=
  match present with
  | none => .ok s
  | some _ => .error "Global logger already initialized"

/-- The least severe level that a program takes, which has a level of its own while it has no
service. -/
def leastLevel (present : Option LogService) (usual : Level) : Level :=
  match present with
  | none => usual
  | some s => s.least

end LogService

end EventQuery
