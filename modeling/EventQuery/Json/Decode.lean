import EventQuery.Decimal.Format
import EventQuery.Json.Number
import EventQuery.Json.Value

/- Taking typed values out of JSON. A record may be an object, where other keys are ignored, or
an array of its fields in order. A variant is its name, or an object with its name for only key. -/

set_option autoImplicit false

namespace EventQuery.Json

/-- Numbers that are not finite have no text of their own. -/
def ofFloat (x : Float) : Json :=
  match Decimal.jsonFormat.write? x with
  | some written => .number written
  | none => .null

def float? : Json → Option Float
  | .number written => readFloat? written
  | _ => none

/-- A part may be missing or null. -/
def present? : Option Json → Option Json
  | none | some .null => none
  | some j => some j

def entries? : Json → Option (List Json)
  | .array entries => some entries
  | _ => none

/-- The entries of an object under their keys as texts. -/
def keyed? : List (List Char × Json) → Option (List (List Char × Json))
  | [] => some []
  | (key, entry) :: rest =>
    match unescape? key, keyed? rest with
    | some text, some others => some ((text, entry) :: others)
    | _, _ => none

/-- The only entry of a key, or nothing where the key is missing. -/
def entryOf (entries : List (List Char × Json)) (name : String) : Option (Option Json) :=
  match entries.filter (·.1 = name.toList) with
  | [] => some none
  | [entry] => some (some entry.2)
  | _ => none

/-- The fields of a record. In an object fields may be missing, but none may stand there twice. -/
def fields? (names : List String) : Json → Option (List (Option Json))
  | .array entries => if entries.length = names.length then some (entries.map some) else none
  | .object entries => (keyed? entries).bind fun named => names.mapM (entryOf named)
  | _ => none

/-- The name of a variant and, unless the name stands alone, what it is paired with. -/
def variant? : Json → Option (String × Option Json)
  | .string written => (unescape? written).map fun name => (String.ofList name, none)
  | .object [(key, entry)] => (unescape? key).map fun name => (String.ofList name, some entry)
  | _ => none

end EventQuery.Json
