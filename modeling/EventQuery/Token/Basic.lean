set_option autoImplicit false

namespace EventQuery

/-- The comparisons allowed between a property and a number. -/
inductive Comparison where
  | less
  | lessOrEqual
  | greater
  | greaterOrEqual
  | equal
  | notEqual
  deriving DecidableEq, Inhabited

namespace Comparison

def all : List Comparison := [less, lessOrEqual, greater, greaterOrEqual, equal, notEqual]

def symbol : Comparison → String
  | less => "<"
  | lessOrEqual => "<="
  | greater => ">"
  | greaterOrEqual => ">="
  | equal => "=="
  | notEqual => "!="

def ofSymbol? (text : String) : Option Comparison := all.find? (·.symbol = text)

end Comparison

/-- Relations begin with an upper-case letter, all other names are words. Spaces, tabs, line ends
and comments are tokens too, so that a row of tokens covers its source without gaps. -/
inductive Token where
  | leftParen
  | rightParen
  | relation (name : String)
  | asKeyword
  | word (name : String)
  | plus
  | colon
  | pipe
  | filterKeyword
  | notKeyword
  | connective (text : String)
  | comparison (op : Comparison)
  | dot
  | minus
  | times
  | divide
  | number (lexeme : String)
  | space
  | tab
  | newline
  | comment (content : String)
  | endOfInput
  deriving DecidableEq, Inhabited

namespace Token

inductive Class where
  | delimiter
  | keyword
  | identifier
  | operator
  | literal
  | trivia
  | endOfInput
  deriving DecidableEq

def Class.all : List Class :=
  [.delimiter, .keyword, .identifier, .operator, .literal, .trivia, .endOfInput]

def Class.name : Class → String
  | delimiter => "Delimiter"
  | keyword => "Keyword"
  | identifier => "Identifier"
  | operator => "Operator"
  | literal => "Literal"
  | trivia => "Trivia"
  | endOfInput => "EndOfInput"

def tokenClass : Token → Class
  | leftParen | rightParen | dot => .delimiter
  | asKeyword | filterKeyword | notKeyword | connective _ => .keyword
  | relation _ | word _ => .identifier
  | plus | colon | pipe | comparison _ | minus | times | divide => .operator
  | number _ => .literal
  | space | tab | newline | comment _ => .trivia
  | endOfInput => .endOfInput

def isTrivia (t : Token) : Bool := t.tokenClass = .trivia

/-- The grammar sees the significant tokens only; the end of the input is one of them. -/
def isSignificant (t : Token) : Bool := !t.isTrivia

def isEnd (t : Token) : Bool := t = endOfInput

def kindName : Token → String
  | leftParen => "LEFT_PAREN"
  | rightParen => "RIGHT_PAREN"
  | relation _ => "RELATION"
  | asKeyword => "AS"
  | word _ => "WORD"
  | plus => "PLUS"
  | colon => "COLON"
  | pipe => "OR"
  | filterKeyword => "FILTER"
  | notKeyword => "NOT"
  | connective _ => "FILT_OP"
  | comparison _ => "PRED_OP"
  | dot => "DOT"
  | minus => "MINUS"
  | times => "MULT"
  | divide => "DIV"
  | number _ => "NUMBER"
  | space => "SPACE"
  | tab => "TAB"
  | newline => "NEWLINE"
  | comment _ => "COMMENT"
  | endOfInput => "EOF"

/-- The fixed text of punctuation and operators. -/
def symbol? : Token → Option String
  | leftParen => some "("
  | rightParen => some ")"
  | plus => some "+"
  | colon => some ":"
  | pipe => some "|"
  | dot => some "."
  | minus => some "-"
  | times => some "*"
  | divide => some "/"
  | comparison op => some op.symbol
  | _ => none

/-- How a token is written in a query. Keywords are written in lower case. -/
def text : Token → String
  | leftParen => "("
  | rightParen => ")"
  | relation name | word name => name
  | asKeyword => "as"
  | plus => "+"
  | colon => ":"
  | pipe => "|"
  | filterKeyword => "filter"
  | notKeyword => "not"
  | connective text => text
  | comparison op => op.symbol
  | dot => "."
  | minus => "-"
  | times => "*"
  | divide => "/"
  | number lexeme => lexeme
  | space => " "
  | tab => "\t"
  | newline => "\n"
  | comment content => "#" ++ content
  | endOfInput => ""

/-- The text that error messages quote. -/
def describe : Token → String
  | endOfInput => "<EOF>"
  | t => t.text

/-- The kind, with the text where tokens of one kind differ in it. -/
def display (t : Token) : String :=
  match t with
  | relation _ | word _ | connective _ | comparison _ | number _ =>
    t.kindName ++ "(" ++ t.text ++ ")"
  | _ => t.kindName

def word? : Token → Option String
  | word name => some name
  | _ => none

def relation? : Token → Option String
  | relation name => some name
  | _ => none

def startsUpper : List Char → Bool
  | c :: _ => c.isUpper
  | [] => false

/-- The token of a name: a keyword in any case, a relation, or a word. -/
def ofName (text : List Char) : Token :=
  let lowered := String.ofList (text.map Char.toLower)
  if lowered = "as" then asKeyword
  else if lowered = "filter" then filterKeyword
  else if lowered = "not" then notKeyword
  else if lowered = "and" ∨ lowered = "or" then connective lowered
  else if startsUpper text then relation (String.ofList text)
  else word (String.ofList text)

@[simp] theorem isSignificant_endOfInput : endOfInput.isSignificant = true := rfl

@[simp] theorem isEnd_iff (t : Token) : t.isEnd = true ↔ t = endOfInput := by simp [isEnd]

end Token

end EventQuery
