import Sieve.Error
import Sieve.Filter
import Sieve.Settings.Basic
import Sieve.Text.Blank
import Sieve.Text.Split

/-! Filters written as expressions, `field:operator:value`. Only the first two colons separate. -/
namespace Sieve.Expression

def listElements (field : String) (value : List Char) : Except FilterError (List RawValue) :=
  (Text.pieces ',' value).mapM fun piece =>
    let element := Text.trim piece
    if element.isEmpty then .error (.malformedField field .blankElement)
    else .ok (.text (String.ofList element))

/-- The value after the second colon: none if there is nothing, a list for an operator that takes
one, and otherwise the text as it stands. -/
def valueOf (field operator : String) (value : List Char) :
    Except FilterError (Option RawValue) :=
  if value.isEmpty then .ok none
  else if ((Operator.ofName? operator).map Operator.takesList).getD false then
    (listElements field value).map fun items => some (.list items)
  else .ok (some (.text (String.ofList value)))

def parseUnlimited (expression : String) : Except FilterError Filter :=
  match Text.cut ':' expression.toList with
  | (_, none) => .error (.malformed (.noExpression expression))
  | (field, some rest) =>
    let (operator, value) := Text.cut ':' rest
    let field := Text.trim field
    let operator := Text.trim operator
    if field.isEmpty || operator.isEmpty then .error (.malformed (.noExpression expression))
    else
      let field := String.ofList field
      let operator := String.ofList operator
      (valueOf field operator (value.getD [])).map fun value => ⟨field, operator, value⟩

def parse (limits : Limits) (expression : String) : Except FilterError Filter :=
  if limits.maxInputBytes < expression.utf8ByteSize then
    .error (.malformed (.expressionTooLong limits.maxInputBytes))
  else parseUnlimited expression

def parseAll (limits : Limits) (expressions : List String) : Except FilterError (Tree Filter) :=
  if limits.maxFilters < expressions.length then
    .error (.malformed (.tooManyFilters limits.maxFilters))
  else (expressions.mapM (parse limits)).map Tree.all

end Sieve.Expression
