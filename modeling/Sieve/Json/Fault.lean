import Sieve.Json.Value
import Sieve.Text.Quoted
import Sieve.Text.Split

/-! What can be wrong with a JSON text, by itself or as a document of a given shape. -/
namespace Sieve.Json

inductive Found where
  | null
  | bool (b : Bool)
  | number (n : Number)
  | string (s : String)
  | sequence
  | map

namespace Found

def text : Found → String
  | null => "null"
  | bool b => s!"boolean `{b}`"
  | number (.whole i) => s!"integer `{String.ofList (decimalOfInt i)}`"
  | number (.real x) => s!"floating point `{String.ofList x.written}`"
  | string s => s!"string {Text.quoted s}"
  | sequence => "sequence"
  | map => "map"

end Found

inductive Fault where
  | endInList
  | endInObject
  | endInString
  | endInValue
  | expectedValue
  | expectedIdent
  | expectedColon
  | expectedListComma
  | expectedObjectComma
  | keyNotString
  | trailingComma
  | trailingCharacters
  | invalidNumber
  | numberOutOfRange
  | invalidEscape
  | controlCharacter
  | loneSurrogate
  | unfinishedSurrogate
  | nestedTooDeep
  | invalidType (found : Found) (expected : String)
  | invalidValue (i : Int) (expected : String)
  | invalidLength (length : Nat) (expected : String)
  | missingField (name : String)
  | duplicateField (name : String)
  | unknownField (name : String) (known : List String)
  | unknownVariant (name : String) (known : List String)

def alternatives : List String → String
  | [only] => s!"`{only}`"
  | [first, second] => s!"`{first}` or `{second}`"
  | names => "one of " ++ Text.joined ", " (names.map fun name => s!"`{name}`")

namespace Fault

def message : Fault → String
  | endInList => "EOF while parsing a list"
  | endInObject => "EOF while parsing an object"
  | endInString => "EOF while parsing a string"
  | endInValue => "EOF while parsing a value"
  | expectedValue => "expected value"
  | expectedIdent => "expected ident"
  | expectedColon => "expected `:`"
  | expectedListComma => "expected `,` or `]`"
  | expectedObjectComma => "expected `,` or `\x7d`"
  | keyNotString => "key must be a string"
  | trailingComma => "trailing comma"
  | trailingCharacters => "trailing characters"
  | invalidNumber => "invalid number"
  | numberOutOfRange => "number out of range"
  | invalidEscape => "invalid escape"
  | controlCharacter => "control character (\\u0000-\\u001F) found while parsing a string"
  | loneSurrogate => "lone leading surrogate in hex escape"
  | unfinishedSurrogate => "unexpected end of hex escape"
  | nestedTooDeep => "recursion limit exceeded"
  | invalidType found expected => s!"invalid type: {found.text}, expected {expected}"
  | invalidValue i expected =>
    s!"invalid value: integer `{String.ofList (decimalOfInt i)}`, expected {expected}"
  | invalidLength length expected => s!"invalid length {length}, expected {expected}"
  | missingField name => s!"missing field `{name}`"
  | duplicateField name => s!"duplicate field `{name}`"
  | unknownField name known => s!"unknown field `{name}`, expected {alternatives known}"
  | unknownVariant name known => s!"unknown variant `{name}`, expected {alternatives known}"

end Fault
end Sieve.Json
