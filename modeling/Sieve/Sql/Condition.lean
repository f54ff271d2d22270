import Sieve.Error
import Sieve.Filter
import Sieve.Pattern
import Sieve.Text.Split

/-! Conditions on columns, with numbered places for their parameters, and their text in SQL. No
value of a filter is ever part of the text. -/
namespace Sieve.Sql

def placeholder (n : Nat) : String :=
  "$" ++ String.ofList (decimalDigits n)

def keyword : Operator → String
  | .eq => "="
  | .neq => "!="
  | .gt => ">"
  | .gte => ">="
  | .lt => "<"
  | .lte => "<="
  | .isIn => "= ANY"
  | .notIn => "!= ALL"
  | .like => "LIKE"
  | .ilike | .contains => "ILIKE"
  | .isNull => "IS NULL"
  | .isNotNull => "IS NOT NULL"

structure Condition where
  column : String
  operator : Operator
  place : Option Nat
  deriving DecidableEq

namespace Condition

def text (c : Condition) : String :=
  let test := c.column ++ " " ++ keyword c.operator
  match c.place with
  | none => test
  | some n =>
    if c.operator.takesList then test ++ "(" ++ placeholder n ++ ")"
    else test ++ " " ++ placeholder n

end Condition

mutual

def textOf : Tree Condition → String
  | .group c conditions groups =>
    Text.joined (" " ++ c.keyword ++ " ") (conditions.map Condition.text ++ nestedTexts groups)

/-- The texts of nested groups, each in parentheses; one that is empty is left out. -/
def nestedTexts : List (Tree Condition) → List String
  | [] => []
  | g :: gs =>
    let sql := textOf g
    if sql.isEmpty then nestedTexts gs else ("(" ++ sql ++ ")") :: nestedTexts gs

end

/-- A condition before its place is numbered, with the parameter that goes there. -/
structure Binding where
  column : String
  operator : Operator
  parameter : Option TypedValue

namespace Binding

def ofFilter (f : TypedFilter) : Except FilterError Binding :=
  if f.operator.isNullCheck then .ok ⟨f.column, f.operator, none⟩
  else match f.value with
    | none => .error (.missingValue f.field f.operator)
    | some value =>
      if f.operator.takesList then
        match value with
        | .list items => .ok ⟨f.column, f.operator, some (.list items)⟩
        | _ => .error (.invalidIn f.field f.operator.name)
      else if f.operator = .contains then
        .ok ⟨f.column, f.operator, some (.text (Pattern.containingText value.display))⟩
      else .ok ⟨f.column, f.operator, some value⟩

end Binding
end Sieve.Sql
