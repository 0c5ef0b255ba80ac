import AccessPolicy.Json

/-! JSON values as text, without blanks. Strings keep their characters, and quotes, backslashes and
control characters are escaped. -/

namespace AccessPolicy.Json

/-- The digit of a number below sixteen. -/
def hexDigit (n : Nat) : Char := (Nat.toDigits 16 n).headD '0'

/-- A character as it is written in a string. -/
def escapedChar (c : Char) : List Char :=
  match c with
  | '"' => ['\\', '"']
  | '\\' => ['\\', '\\']
  | '\x08' => ['\\', 'b']
  | '\x0c' => ['\\', 'f']
  | '\n' => ['\\', 'n']
  | '\r' => ['\\', 'r']
  | '\t' => ['\\', 't']
  | c =>
    if c < ' ' then ['\\', 'u', '0', '0', hexDigit (c.toNat / 16), hexDigit (c.toNat % 16)]
    else [c]

/-- A string in quotes. -/
def printString (s : String) : List Char := '"' :: s.toList.flatMap escapedChar ++ ['"']

mutual

/-- The text of a value, without blanks. -/
def print : Json → List Char
  | null => "null".toList
  | bool b => (if b then "true" else "false").toList
  | number n => n.toText.toList
  | string s => printString s
  | array items => '[' :: printItems items ++ [']']
  | object entries => '{' :: printEntries entries ++ ['}']

/-- Items with commas between them. -/
def printItems : List Json → List Char
  | [] => []
  | [v] => v.print
  | v :: vs => v.print ++ ',' :: printItems vs

/-- Entries with commas between them. -/
def printEntries : List (String × Json) → List Char
  | [] => []
  | [(k, v)] => printString k ++ ':' :: v.print
  | (k, v) :: es => printString k ++ ':' :: v.print ++ ',' :: printEntries es

end

/-- The text of a value as a string. -/
def render (v : Json) : String := String.ofList v.print

end AccessPolicy.Json
