import Sieve.Json.Fault
import Sieve.Json.Written
import Sieve.Operator

/-! Why a filter is refused. -/
namespace Sieve

inductive ErrorKind where
  | unknownField
  | invalidOperator
  | invalidType
  | invalidUuid
  | invalidDate
  | invalidEnum
  | invalidIn
  | invalidFormat
  deriving DecidableEq

namespace ErrorKind

def code : ErrorKind → String
  | unknownField => "UNKNOWN_FIELD"
  | invalidOperator => "INVALID_OPERATOR"
  | invalidType => "INVALID_TYPE"
  | invalidUuid => "INVALID_UUID"
  | invalidDate => "INVALID_DATE"
  | invalidEnum => "INVALID_ENUM"
  | invalidIn => "INVALID_IN"
  | invalidFormat => "INVALID_FORMAT"

end ErrorKind

inductive DocumentPart where
  | group
  | filter

inductive Malformation where
  | expressionTooLong (bytes : Nat)
  | documentTooLong (bytes : Nat)
  | tooManyFilters (count : Nat)
  | nestedTooDeep (levels : Nat)
  | noExpression (text : String)
  | notJson (fault : Json.Fault)
  | notObject
  | unknownKey (key : String) (part : DocumentPart)
  | unknownConnective (text : String)
  | invalidConnective (value : Json)
  | entryNotObject (key : String)
  | notArray (key : String)
  | noField
  | custom (message : String)

inductive FieldMalformation where
  | blankElement
  | missingValue (operator : Operator)
  | noOperators
  | invalidOperator
  | nestedList
  | nullElement
  | objectValue
  | custom (message : String)

/-- Why a filter is refused; values are given as they are shown. -/
inductive FilterError where
  | unknownField (field resource : String)
  | invalidOperator (field operator : String)
  | invalidType (field expected value : String)
  | invalidUuid (field value : String)
  | invalidDate (field value : String)
  | invalidEnum (field value : String) (allowed : List String)
  | invalidIn (field operator : String)
  | malformed (cause : Malformation)
  | malformedField (field : String) (cause : FieldMalformation)

namespace Malformation

def message : Malformation → String
  | expressionTooLong bytes => s!"Filter expression exceeds maximum size of {bytes} bytes"
  | documentTooLong bytes => s!"Filter document exceeds maximum size of {bytes} bytes"
  | tooManyFilters count => s!"Maximum {count} filters allowed"
  | nestedTooDeep levels => s!"Filter groups nested deeper than {levels} levels"
  | noExpression text => s!"Invalid filter '{text}': expected field:operator:value"
  | notJson fault => s!"Invalid filter document: {fault.message}"
  | notObject => "Filter document must be a JSON object"
  | unknownKey key .group => s!"Unknown key '{key}' in filter group"
  | unknownKey key .filter => s!"Unknown key '{key}' in filter filter"
  | unknownConnective text => s!"Invalid group operator '{text}': expected 'and' or 'or'"
  | invalidConnective value => s!"Invalid group operator {value.text}: expected 'and' or 'or'"
  | entryNotObject key => s!"Every entry of '{key}' must be an object"
  | notArray key => s!"'{key}' must be an array"
  | noField => "Each filter needs a non-empty string 'field'"
  | custom message => message

end Malformation

namespace FieldMalformation

def message (field : String) : FieldMalformation → String
  | blankElement => s!"Empty list element in filter on field '{field}'"
  | missingValue operator => s!"Operator '{operator.name}' on field '{field}' requires a value"
  | noOperators => s!"Empty operator map for field '{field}'"
  | invalidOperator => s!"Filter on field '{field}' has an invalid 'op'"
  | nestedList => s!"Nested lists are not allowed in filter on field '{field}'"
  | nullElement => s!"Null list element in filter on field '{field}'"
  | objectValue => s!"Unexpected object value in filter on field '{field}'"
  | custom message => message

end FieldMalformation

namespace FilterError

def kind : FilterError → ErrorKind
  | unknownField .. => .unknownField
  | invalidOperator .. => .invalidOperator
  | invalidType .. => .invalidType
  | invalidUuid .. => .invalidUuid
  | invalidDate .. => .invalidDate
  | invalidEnum .. => .invalidEnum
  | invalidIn .. => .invalidIn
  | malformed _ => .invalidFormat
  | malformedField .. => .invalidFormat

def field? : FilterError → Option String
  | unknownField field _ | invalidOperator field _ | invalidType field _ _ | invalidUuid field _
  | invalidDate field _ | invalidEnum field _ _ | invalidIn field _ | malformedField field _ =>
    some field
  | malformed _ => none

def message : FilterError → String
  | unknownField field resource => s!"Unknown field '{field}' for resource '{resource}'"
  | invalidOperator field operator =>
    s!"Operator '{operator}' is not allowed on field '{field}'"
  | invalidType field expected value =>
    s!"Invalid value '{value}' for field '{field}': expected {expected}"
  | invalidUuid field value => s!"Invalid UUID '{value}' for field '{field}'"
  | invalidDate field value =>
    s!"Invalid timestamp '{value}' for field '{field}'. Use ISO 8601 format."
  | invalidEnum field value allowed =>
    let names := Text.joined ", " allowed
    s!"Invalid value '{value}' for field '{field}': expected one of [{names}]"
  | invalidIn field operator =>
    s!"Operator '{operator}' on field '{field}' requires a list of values"
  | malformed cause => cause.message
  | malformedField field cause => cause.message field

def missingValue (field : String) (operator : Operator) : FilterError :=
  malformedField field (.missingValue operator)

end FilterError
end Sieve
