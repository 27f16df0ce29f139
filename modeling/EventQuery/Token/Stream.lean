import EventQuery.Source.Text
import EventQuery.Token.Basic

set_option autoImplicit false

namespace EventQuery

/-- Why a row of tokens is no stream. -/
inductive StreamError where
  | empty
  | unterminated (last : Token)
  | repeatedEnd (count : Nat)
  deriving DecidableEq

def StreamError.found : StreamError → String
  | empty => "an empty stream"
  | unterminated last => last.display
  | repeatedEnd count => toString count ++ " end-of-input tokens"

def StreamError.message (e : StreamError) : String :=
  "Token stream must end with an end-of-input token, found " ++ e.found

/-- The tokens that are no trivia. -/
def significantTokens (tokens : List (Located Token)) : List (Located Token) :=
  tokens.filter (·.value.isSignificant)

/-- `tokens` holds every token, trivia included, and `content` the significant ones before the end
of the input, whose place is `finish`. -/
structure TokenStream where
  tokens : List (Located Token)
  source : Option SourceText
  content : List (Located Token)
  finish : Span
  significant_eq : significantTokens tokens = content ++ [⟨.endOfInput, finish⟩]
  content_ne_end : ∀ t ∈ content, t.value ≠ .endOfInput

namespace TokenStream

def ofTokens (tokens : List (Located Token)) (source : Option SourceText) :
    Except StreamError TokenStream :=
  match found : (significantTokens tokens).reverse with
  | [] => .error .empty
  | last :: before =>
    if isLast : last.value = .endOfInput then
      if alone : before.all (fun t => t.value ≠ .endOfInput) then
        .ok
          { tokens, source
            content := before.reverse
            finish := last.span
            significant_eq := by
              have same := congrArg List.reverse found
              rw [List.reverse_reverse, List.reverse_cons] at same
              rw [same, ← isLast]
            content_ne_end := by simpa using alone }
      else .error (.repeatedEnd ((before.filter (·.value.isEnd)).length + 1))
    else .error (.unterminated last.value)

/-- The significant tokens, the end of the input included. -/
def significant (s : TokenStream) : List (Located Token) :=
  s.content ++ [⟨.endOfInput, s.finish⟩]

/-- The number of significant tokens, at least the end of the input. -/
def size (s : TokenStream) : Nat := s.content.length + 1

def isEmpty (s : TokenStream) : Bool := s.significant.isEmpty

/-- There is always the end of the input. -/
@[simp] theorem isEmpty_eq_false (s : TokenStream) : s.isEmpty = false := by
  simp [isEmpty, significant]

/-- The text that a span covers, where the source is at hand. -/
def sourceText? (s : TokenStream) (span : Span) : Option (List Char) :=
  s.source.map (·.spanText span)

end TokenStream

/-- Places tokens one after the other, each as long as the text that it covers. -/
structure StreamBuilder where
  tokens : Array (Located Token)
  position : Position

namespace StreamBuilder

def empty : StreamBuilder := ⟨#[], .start⟩

def push (b : StreamBuilder) (token : Token) (text : List Char) : StreamBuilder :=
  let stop := b.position.advanceOver text
  ⟨b.tokens.push ⟨token, ⟨b.position, stop⟩⟩, stop⟩

def count (b : StreamBuilder) : Nat := b.tokens.size

def build (b : StreamBuilder) : Except StreamError TokenStream :=
  TokenStream.ofTokens b.tokens.toList none

end StreamBuilder

end EventQuery
