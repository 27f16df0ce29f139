import EventQuery.Text.Extender
import EventQuery.Text.Ranges
import EventQuery.Text.Unprintable

set_option autoImplicit false

namespace EventQuery.Text

/-- The code point of a character in hexadecimal digits. -/
def codeEscape (c : Char) : List Char :=
  "\\u".toList ++ '{' :: Nat.toDigits 16 c.toNat ++ ['}']

def quoteChar (c : Char) : List Char :=
  match c with
  | '"' => "\\\"".toList
  | '\\' => "\\\\".toList
  | '\n' => "\\n".toList
  | '\r' => "\\r".toList
  | '\t' => "\\t".toList
  | '\x00' => "\\0".toList
  | _ =>
    if ' ' ≤ c ∧ c ≤ '~' then [c]
    else if inRanges graphemeExtend c || inRanges unprintable c then codeEscape c
    else [c]

def quoted (text : String) : String :=
  String.ofList ('"' :: text.toList.flatMap quoteChar ++ ['"'])

end EventQuery.Text
