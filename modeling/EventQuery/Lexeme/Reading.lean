import EventQuery.Lexeme.Munch
import EventQuery.Log.Code
import EventQuery.Token.Stream

set_option autoImplicit false

namespace EventQuery

inductive LexicalFault where
  | invalidCharacter (c : Char)
  | invalidNumber (text : String)
  | identifierTooLong (length : Nat)
  | commentTooLong (length : Nat)
  | tooManyTokens
  | nestingTooDeep (depth : Nat)
  | malformedStream (error : StreamError)
  deriving DecidableEq

/-- A fault at the place where the refused lexeme begins. -/
structure LexicalError where
  fault : LexicalFault
  position : Position
  deriving DecidableEq

namespace Lexeme

def maxNameBytes : Nat := 255

def maxNumberBytes : Nat := 64

def maxCommentBytes : Nat := 10000

def maxTokens : Nat := 10000

def maxDepth : Nat := 128

/-- The size of the shortest part of `text` that, after `size` bytes, is above the limit. -/
def overrun? (limit size : Nat) : List Char → Option Nat
  | [] => none
  | c :: rest =>
    if limit < size + c.utf8Size then some (size + c.utf8Size)
    else overrun? limit (size + c.utf8Size) rest

def readName (text : List Char) : Except LexicalFault Token :=
  if maxNameBytes < byteCount text then .error (.identifierTooLong (byteCount text))
  else .ok (.ofName text)

/-- A text that writes a number within the range of binary64. -/
def isFinite (text : List Char) : Bool :=
  match Decimal.readFloat? text with
  | some x => x.isFinite
  | none => false

/-- Numbers keep the text that they were written in. One that overflows is refused. -/
def readNumber (text : List Char) : Except LexicalFault Token :=
  if byteCount text ≤ maxNumberBytes && isFinite text then .ok (.number (String.ofList text))
  else .error (.invalidNumber (String.ofList text))

/-- The content of a comment is what follows its mark. -/
def readComment (content : List Char) : Except LexicalFault Token :=
  match overrun? maxCommentBytes 0 content with
  | some length => .error (.commentTooLong length)
  | none => .ok (.comment (String.ofList content))

def punctuation? : Char → Option Token
  | ' ' => some .space
  | '\t' => some .tab
  | '\n' | '\r' => some .newline
  | '(' => some .leftParen
  | ')' => some .rightParen
  | '+' => some .plus
  | '-' => some .minus
  | '*' => some .times
  | '/' => some .divide
  | ':' => some .colon
  | '|' => some .pipe
  | '.' => some .dot
  | _ => none

/-- The token of a lexeme. A lone `=` or `!` is no comparison. -/
def read (l : Lexeme) : Except LexicalFault Token :=
  if isDigit l.first then readNumber l.text
  else if beginsName l.first then readName l.text
  else if l.first = '#' then readComment l.more
  else match punctuation? l.first with
    | some token => .ok token
    | none =>
      match Comparison.ofSymbol? (String.ofList l.text) with
      | some op => .ok (.comparison op)
      | none => .error (.invalidCharacter l.first)

end Lexeme

namespace LexicalError

def message (e : LexicalError) : String :=
  let place := e.position.render
  match e.fault with
  | .invalidCharacter c => "Invalid character '" ++ String.singleton c ++ "' at " ++ place
  | .invalidNumber text => "Invalid number '" ++ text ++ "' at " ++ place
  | .identifierTooLong length =>
    "Identifier too long at " ++ place ++ ": " ++ toString length ++ " characters (max " ++
      toString Lexeme.maxNameBytes ++ ")"
  | .commentTooLong length =>
    "Comment too long at " ++ place ++ ": " ++ toString length ++ " characters (max " ++
      toString Lexeme.maxCommentBytes ++ ")"
  | .tooManyTokens =>
    "Too many tokens at " ++ place ++ ": more than " ++ toString Lexeme.maxTokens
  | .nestingTooDeep depth =>
    "Parentheses nested too deep at " ++ place ++ ": " ++ toString depth ++ " (max " ++
      toString Lexeme.maxDepth ++ ")"
  | .malformedStream error => error.message

def code (e : LexicalError) : Code :=
  match e.fault with
  | .invalidCharacter _ => .invalidCharacter
  | .invalidNumber _ => .invalidNumber
  | .identifierTooLong _ => .identifierTooLong
  | .commentTooLong _ => .commentTooLong
  | .tooManyTokens => .tooManyTokens
  | .nestingTooDeep _ => .nestingTooDeep
  | .malformedStream _ => .unterminatedStream

def span (e : LexicalError) : Span := .point e.position

end LexicalError

end EventQuery
