import Sieve.Sql.Condition

/-! Fragments of SQL that stand for trees of filters. The number of the first place is given and
the number after the last is handed back, so that fragments can share one list of parameters. -/
namespace Sieve.Sql

/-- The parameters collected on the way, and the number of the next place. -/
structure Params where
  values : List TypedValue
  next : Nat

def Params.startingAt (start : Nat) : Params :=
  ⟨[], max start 1⟩

def Params.push (value : TypedValue) : StateM Params Nat := fun params =>
  (params.next, ⟨params.values ++ [value], params.next + 1⟩)

def Binding.emit (b : Binding) : StateM Params Condition :=
  match b.parameter with
  | none => return ⟨b.column, b.operator, none⟩
  | some value => return ⟨b.column, b.operator, some (← Params.push value)⟩

structure Fragment where
  sql : String
  params : List TypedValue
  next : Nat

namespace Fragment

def isEmpty (f : Fragment) : Bool :=
  f.sql.isEmpty

def parenthesized (f : Fragment) : String :=
  if f.isEmpty then "" else "(" ++ f.sql ++ ")"

def whereClause (f : Fragment) : String :=
  if f.isEmpty then "" else "WHERE " ++ f.sql

def toJson (f : Fragment) : Json :=
  .object [("sql", .string f.sql), ("params", .array (f.params.map TypedValue.toJson)),
    ("nextParamIndex", .number (.whole f.next))]

def ofBindings (bindings : Tree Binding) (params : Params) : Fragment :=
  let (conditions, params) := (bindings.mapM Binding.emit).run params
  ⟨textOf conditions, params.values, params.next⟩

end Fragment

/-- The fragment of a tree. Numbers start at `start`, or at one for zero. -/
def compile (tree : Tree TypedFilter) (start : Nat) : Except FilterError Fragment :=
  (tree.mapM Binding.ofFilter).map fun bindings => Fragment.ofBindings bindings (.startingAt start)

def compileFilter (f : TypedFilter) (start : Nat) : Except FilterError Fragment :=
  compile (Tree.all [f]) start

end Sieve.Sql
