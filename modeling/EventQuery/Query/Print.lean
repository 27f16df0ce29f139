import EventQuery.Query.Tree

set_option autoImplicit false

namespace EventQuery.Query

mutual

/-- Kind and text of a leaf, kind and children of a branch. -/
def inlineChars : Query → List Char
  | node kind children token _ =>
    let inner :=
      if kind.isLeaf then ((token.map (·.value.text)).getD "").toList
      else inlineAll children
    kind.name.toList ++ '(' :: inner ++ [')']

def inlineAll : List Query → List Char
  | [] => []
  | [q] => inlineChars q
  | q :: r :: rest => inlineChars q ++ ',' :: ' ' :: inlineAll (r :: rest)

end

/-- The tree on one line. -/
def inline (q : Query) : String := String.ofList q.inlineChars

/-- One line: two spaces for each level, the kind, and the text of a leaf. -/
def row (level : Nat) (q : Query) : List Char :=
  List.replicate (2 * level) ' ' ++ q.kind.name.toList ++
    (if q.kind.isLeaf then ' ' :: q.text.toList else []) ++ ['\n']

/-- The tree with one node a line. -/
def indented (q : Query) : String :=
  String.ofList ((q.outline 0).flatMap fun entry => row entry.1 entry.2)

end EventQuery.Query
