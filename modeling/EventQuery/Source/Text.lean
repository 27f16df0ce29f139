import EventQuery.Source.Position

set_option autoImplicit false

namespace EventQuery

/-- The number of bytes of a text in UTF-8. -/
def byteCount (text : List Char) : Nat := text.foldr (fun c count => c.utf8Size + count) 0

@[simp] theorem byteCount_nil : byteCount [] = 0 := rfl

@[simp] theorem byteCount_cons (c : Char) (rest : List Char) :
    byteCount (c :: rest) = c.utf8Size + byteCount rest := rfl

/-- Moves characters of the second list to the first until `n` bytes have been moved.
Fails where `n` bytes end inside a character or behind the text. -/
def cutFrom (taken : List Char) : List Char → Nat → Option (List Char × List Char)
  | rest, 0 => some (taken.reverse, rest)
  | [], _ + 1 => none
  | c :: rest, n + 1 =>
    if c.utf8Size ≤ n + 1 then cutFrom (c :: taken) rest (n + 1 - c.utf8Size) else none

/-- Splits a text after its first `n` bytes, which must be whole characters. -/
def cutAt (n : Nat) (text : List Char) : Option (List Char × List Char) := cutFrom [] text n

/-- The characters between two byte offsets, if both are character boundaries in order. -/
def sliceBytes (text : List Char) (first last : Nat) : Option (List Char) :=
  if first ≤ last then
    (cutAt first text).bind fun front => (cutAt (last - first) front.2).map Prod.fst
  else none

/-- The parts of a text between its line feeds. A text has one line more than line feeds. -/
def splitLines (text : List Char) : List (List Char) :=
  text.foldr
    (fun c lines =>
      if c = '\n' then [] :: lines
      else match lines with
        | [] => [[c]]
        | line :: others => (c :: line) :: others)
    [[]]

/-- Drops every carriage return at the end of a line. -/
def trimReturns (line : List Char) : List Char :=
  (line.reverse.dropWhile (· = '\r')).reverse

structure SourceText where
  name : String
  content : List Char

namespace SourceText

def ofString (name content : String) : SourceText := ⟨name, content.toList⟩

def size (source : SourceText) : Nat := byteCount source.content

def lineCount (source : SourceText) : Nat := (splitLines source.content).length

/-- Lines count from 1 and are given without their terminator. -/
def line (source : SourceText) : Nat → Option (List Char)
  | 0 => none
  | n + 1 => (splitLines source.content)[n]?.map trimReturns

/-- The covered text, empty where the span is no range of whole characters of the source. -/
def spanText (source : SourceText) (span : Span) : List Char :=
  (sliceBytes source.content span.start.offset span.stop.offset).getD []

/-- A span that runs past its first line is underlined to the end of that line. -/
def caretCount (span : Span) (line : List Char) : Nat :=
  max 1 <|
    if span.start.line = span.stop.line then span.stop.column.toNat - span.start.column.toNat
    else line.length + 1 - span.start.column.toNat

def row (gutter : String) (text : List Char) : String :=
  gutter ++ " | " ++ String.ofList text ++ "\n"

/-- The message, the place, and below them the line of the fault with its carets. -/
def excerpt (source : SourceText) (span : Span) (message : String) : String :=
  let header := "error: " ++ message ++ "\n  --> " ++ source.name ++ ":" ++ span.render ++ "\n"
  match source.line span.start.line.toNat with
  | none => header
  | some text =>
    let gutter := toString span.start.line
    let blank := String.ofList (List.replicate gutter.length ' ')
    let carets := List.replicate (span.start.column.toNat - 1) ' ' ++
      List.replicate (caretCount span text) '^'
    header ++ blank ++ " |\n" ++ row gutter text ++ row blank carets

end SourceText

end EventQuery
