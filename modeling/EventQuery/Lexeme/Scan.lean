import EventQuery.Lexeme.Reading
import EventQuery.Lexeme.Tally

set_option autoImplicit false

namespace EventQuery

namespace Lexeme

/-- What has been scanned so far, the token read last at the head of `tokens`. -/
structure Progress where
  position : Position
  depth : Nat
  significant : Nat
  tokens : List (Located Token)
  tally : Tally

namespace Progress

def start : Progress := ⟨.start, 0, 0, [], .zero⟩

/-- Keeps the depth of open parentheses and the greatest lengths. A closing parenthesis without an
opening one leaves the depth at zero. -/
def nest (p : Progress) : Token → Except LexicalFault Progress
  | .leftParen =>
    if maxDepth < p.depth + 1 then .error (.nestingTooDeep (p.depth + 1))
    else .ok { p with depth := p.depth + 1, tally := p.tally.reach (p.depth + 1) }
  | .rightParen => .ok { p with depth := p.depth - 1 }
  | .comment content => .ok { p with tally := p.tally.extend content.toList }
  | _ => .ok p

/-- Places a token behind the others. -/
def push (counting : Counting) (p : Progress) (token : Token) (text : List Char) : Progress :=
  let stop := p.position.advanceOver text
  { p with
    position := stop
    significant := if token.isSignificant then p.significant + 1 else p.significant
    tokens := ⟨token, ⟨p.position, stop⟩⟩ :: p.tokens
    tally := p.tally.record counting token }

def full (p : Progress) (token : Token) : Bool :=
  token.isSignificant && maxTokens < p.significant + 1

end Progress

/-- The counts of a scan, and its tokens or the fault that ended it. -/
structure Scan where
  tally : Tally
  outcome : Except LexicalError (List (Located Token))

def Scan.failed (p : Progress) (fault : LexicalFault) : Scan :=
  ⟨p.tally, .error ⟨fault, p.position⟩⟩

/-- The end of the input is the last token. It stands behind the source and covers nothing. -/
def Scan.finished (counting : Counting) (p : Progress) : Scan :=
  let done := p.push counting .endOfInput []
  ⟨done.tally, .ok done.tokens.reverse⟩

/-- A token is refused for its own text first, then for its depth, then for the number of tokens. -/
def scanFrom (counting : Counting) (p : Progress) : List Lexeme → Scan
  | [] => .finished counting p
  | l :: rest =>
    match l.read with
    | .error fault => .failed p fault
    | .ok token =>
      match p.nest token with
      | .error fault => .failed p fault
      | .ok nested =>
        if nested.full token then .failed nested .tooManyTokens
        else scanFrom counting (nested.push counting token l.text) rest

def scan (counting : Counting) (source : List Char) : Scan :=
  scanFrom counting .start (split source)

end Lexeme

/-- The counts of a scan, and the stream of its tokens or the fault that ended it. -/
structure Tokenization where
  tally : Tally
  outcome : Except LexicalError TokenStream

def tokenize (counting : Counting) (source : SourceText) : Tokenization :=
  let scan := Lexeme.scan counting source.content
  { tally := scan.tally
    outcome := scan.outcome.bind fun tokens =>
      (TokenStream.ofTokens tokens (some source)).mapError
        fun error => ⟨.malformedStream error, .start⟩ }

/-- Tokenizes one source after the other, and has the counts of the last one. -/
structure Analyzer where
  counting : Counting
  tally : Tally

namespace Analyzer

def fresh (counting : Counting) : Analyzer := ⟨counting, .zero⟩

/-- Counts anew, and goes on from these counts while the source is scanned. -/
def tokenize (a : Analyzer) (source : SourceText) : Except LexicalError TokenStream × Analyzer :=
  let cleared := { a with tally := .zero }
  let scan := Lexeme.scanFrom cleared.counting { Lexeme.Progress.start with tally := cleared.tally }
    (Lexeme.split source.content)
  (scan.outcome.bind fun tokens =>
    (TokenStream.ofTokens tokens (some source)).mapError
      fun error => ⟨.malformedStream error, .start⟩, { cleared with tally := scan.tally })

/-- The analyzer behind a row of sources, whatever came of them. -/
def after (a : Analyzer) (sources : List SourceText) : Analyzer :=
  sources.foldl (fun a source => (a.tokenize source).2) a

end Analyzer

end EventQuery
