import Sieve.Operator
import Sieve.Tree
import Sieve.Value.Typed

/-! The leaves of filter trees, before and after their values are typed. -/
namespace Sieve

/-- A filter as it comes in: the operator is any text, and the value may be missing. -/
structure Filter where
  field : String
  operator : String
  value : Option RawValue

structure TypedFilter where
  field : String
  column : String
  operator : Operator
  value : Option TypedValue

def optionalMember (name : String) (value : Option Json) : List (String × Json) :=
  match value with
  | some v => [(name, v)]
  | none => []

namespace Filter

def resolvedOperator (f : Filter) : Option Operator :=
  Operator.ofName? f.operator

def expression (f : Filter) : String :=
  f.field ++ ":" ++ f.operator ++ ":" ++ ((f.value.map RawValue.display).getD "")

def toJson (f : Filter) : Json :=
  .object <| [("field", .string f.field), ("operator", .string f.operator)] ++
    optionalMember "value" (f.value.map RawValue.toJson)

end Filter

namespace TypedFilter

def toFilter (f : TypedFilter) : Filter :=
  ⟨f.field, f.operator.name, f.value.map TypedValue.toRaw⟩

def toJson (f : TypedFilter) : Json :=
  .object <|
    [("field", .string f.field), ("column", .string f.column),
      ("operator", .string f.operator.name)] ++
    optionalMember "value" (f.value.map TypedValue.toJson)

end TypedFilter

namespace Tree

mutual

def toJson {α : Type} (leaf : α → Json) : Tree α → Json
  | group c ls gs =>
    .object [("operator", .string c.name), ("filters", .array (ls.map leaf)),
      ("groups", .array (groupsToJson leaf gs))]

def groupsToJson {α : Type} (leaf : α → Json) : List (Tree α) → List Json
  | [] => []
  | g :: gs => toJson leaf g :: groupsToJson leaf gs

end

end Tree
end Sieve
