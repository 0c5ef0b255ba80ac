import AccessPolicy.Json
import AccessPolicy.Text.Quoted

/-! Why JSON text or a JSON value cannot be read as what is wanted of it. -/

namespace AccessPolicy.Json

/-- What stands in a place that wants something else. -/
inductive Found where
  | null
  | bool (value : Bool)
  | number (value : Number)
  | string (value : String)
  | sequence
  | map
deriving Repr

/-- The reasons for refusing a text or a value. -/
inductive ReadError where
  | endInValue
  | endInString
  | endInObject
  | endInList
  | expectedValue
  | expectedIdent
  | expectedColon
  | expectedObjectCommaOrEnd
  | expectedListCommaOrEnd
  | keyNotString
  | trailingComma
  | trailingCharacters
  | invalidNumber
  | numberOutOfRange
  | invalidEscape
  | endOfHexEscape
  | loneSurrogate
  | controlCharacter
  | nestingTooDeep
  | invalidType (found : Found) (wanted : String)
  | tooManyItems (count : Nat)
  | duplicateField (name : String)
deriving Repr

/-- What a value is reported to be where another kind is wanted. -/
def found : Json → Found
  | null => .null
  | bool b => .bool b
  | number n => .number n
  | string s => .string s
  | array _ => .sequence
  | object _ => .map

/-- The name of what was found, with the value where it is short. -/
def Found.text : Found → String
  | null => "null"
  | bool b => s!"boolean `{b}`"
  | number (.int n) => s!"integer `{n}`"
  | number (.float x) => s!"floating point `{Number.toText (.float x)}`"
  | string s => s!"string {Text.quoted s}"
  | sequence => "sequence"
  | map => "map"

/-- What the user is told about a text or a value that cannot be read. -/
def ReadError.message : ReadError → String
  | endInValue => "EOF while parsing a value"
  | endInString => "EOF while parsing a string"
  | endInObject => "EOF while parsing an object"
  | endInList => "EOF while parsing a list"
  | expectedValue => "expected value"
  | expectedIdent => "expected ident"
  | expectedColon => "expected `:`"
  | expectedObjectCommaOrEnd => "expected `,` or `\x7d`"
  | expectedListCommaOrEnd => "expected `,` or `]`"
  | keyNotString => "key must be a string"
  | trailingComma => "trailing comma"
  | trailingCharacters => "trailing characters"
  | invalidNumber => "invalid number"
  | numberOutOfRange => "number out of range"
  | invalidEscape => "invalid escape"
  | endOfHexEscape => "unexpected end of hex escape"
  | loneSurrogate => "lone leading surrogate in hex escape"
  | controlCharacter => "control character (\\u0000-\\u001F) found while parsing a string"
  | nestingTooDeep => "recursion limit exceeded"
  | invalidType found wanted => s!"invalid type: {found.text}, expected {wanted}"
  | tooManyItems count => s!"invalid length {count}, expected fewer elements in array"
  | duplicateField name => s!"duplicate field `{name}`"

end AccessPolicy.Json
