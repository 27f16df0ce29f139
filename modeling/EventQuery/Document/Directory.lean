set_option autoImplicit false

namespace EventQuery.Document

/-- Why the system does not do what it is asked to do with a file. -/
inductive Refusal where
  | gone
  | denied
  | failing (reason : String)

/-- What is found at a path. A file comes with its full path, the size that is told of it and its
content, or with those of them that it does not withhold. A device can be read but is no file. -/
inductive Lookup where
  | missing
  | throughFile
  | nameTooLong
  | nulInName
  | barred
  | directory
  | device (content : ByteArray)
  | unresolved (refusal : Refusal)
  | unmeasured (path : String) (refusal : Refusal)
  | unreadable (path : String) (size : Nat) (refusal : Refusal)
  | file (path : String) (size : Nat) (content : ByteArray)

/-- Tells what is at each path. -/
abbrev FileSystem := String → Lookup

inductive Entry where
  | directory
  | file (content : ByteArray)

/-- `place` is the full path of the directory. Entries are given by the names that lead to them;
a directory need not be listed if something is listed in it. -/
structure Directory where
  place : String
  entries : List (List String × Entry)

namespace Directory

def entryAt (d : Directory) (names : List String) : Option Entry :=
  match d.entries.lookup names with
  | some entry => some entry
  | none =>
    if d.entries.any (fun e => names.isPrefixOf e.1) || names.isEmpty then some .directory else none

/-- A place on the way: names below the directory, or somewhere above it. -/
inductive Place where
  | below (names : List String)
  | above

def maxNameBytes : Nat := 255

def maxPathBytes : Nat := 4095

/-- Follows the names of a path. Names can only be followed from a directory. -/
def follow (d : Directory) : Place → List String → Lookup
  | .above, [] => .directory
  | .above, name :: rest =>
    if name = "" ∨ name = "." ∨ name = ".." then d.follow .above rest else .missing
  | .below names, path =>
    match d.entryAt names, path with
    | none, _ => .missing
    | some .directory, [] => .directory
    | some (.file content), [] =>
      .file (d.place ++ "/" ++ "/".intercalate names) content.size content
    | some (.file _), _ :: _ => .throughFile
    | some .directory, name :: rest =>
      if name = "" ∨ name = "." then d.follow (.below names) rest
      else if name = ".." then
        if names.isEmpty then d.follow .above rest else d.follow (.below names.dropLast) rest
      else if maxNameBytes < name.utf8ByteSize then .nameTooLong
      else d.follow (.below (names ++ [name])) rest

/-- What a path leads to from the directory. Absolute paths lead above it. -/
def look (d : Directory) : FileSystem := fun path =>
  if path.isEmpty then .missing
  else if path.toList.contains '\x00' then .nulInName
  else if maxPathBytes < path.utf8ByteSize then .nameTooLong
  else if path.startsWith "/" then d.follow .above (path.splitOn "/")
  else d.follow (.below []) (path.splitOn "/")

end Directory

def Refusal.reason : Refusal → String
  | gone => "No such file or directory (os error 2)"
  | denied => "Permission denied (os error 13)"
  | failing reason => reason

namespace Lookup

/-- The text of a file, or why it cannot be read. -/
def readText : Lookup → Except String String
  | missing => .error Refusal.gone.reason
  | throughFile => .error "Not a directory (os error 20)"
  | nameTooLong => .error "File name too long (os error 36)"
  | nulInName => .error "file name contained an unexpected NUL byte"
  | barred => .error Refusal.denied.reason
  | directory => .error "Is a directory (os error 21)"
  | unresolved refusal | unmeasured _ refusal | unreadable _ _ refusal => .error refusal.reason
  | device content | file _ _ content =>
    match String.fromUTF8? content with
    | some text => .ok text
    | none => .error "stream did not contain valid UTF-8"

end Lookup

/-- The part of the last name of a path behind its last dot. A dot that begins the name is part of
it. -/
def extension? (path : String) : Option String :=
  let name := ((path.splitOn "/").getLast?.getD "").toList.reverse
  let ending := name.takeWhile (· ≠ '.')
  match name.dropWhile (· ≠ '.') with
  | '.' :: before =>
    if before.isEmpty || before = ['.'] && ending.isEmpty then none
    else some (String.ofList ending.reverse)
  | _ => none

end EventQuery.Document
