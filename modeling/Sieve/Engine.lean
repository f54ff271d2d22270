import Sieve.Coercion
import Sieve.Document
import Sieve.Expression
import Sieve.Matching
import Sieve.Report
import Sieve.Sql.Fragment

/-! The way of a filter from its input to a fragment of SQL, under given settings. Every refusal is
a report. -/
namespace Sieve

inductive Source where
  | expressions (list : List String)
  | documentText (text : String)
  | document (json : Json)
  | tree (tree : Tree Filter)

namespace Source

def read (limits : Limits) : Source → Except FilterError (Tree Filter)
  | expressions list => Expression.parseAll limits list
  | documentText text => Document.parse limits text
  | document json => Document.ofJson limits json
  | tree t => .ok t

end Source

namespace Settings

def refuse {α : Type} (s : Settings) : Except (List FilterError) α → Except Report α
  | .ok x => .ok x
  | .error errors => .error (Report.ofErrors s.report errors)

def refuseOne {α : Type} (s : Settings) : Except FilterError α → Except Report α
  | .ok x => .ok x
  | .error e => .error (Report.ofErrors s.report [e])

def readSource (s : Settings) (source : Source) : Except Report (Tree Filter) :=
  s.refuseOne (source.read s.limits)

def validate (s : Settings) (schema : Schema) (tree : Tree Filter) : Except Report Unit :=
  s.refuse (tree.validate schema s.validationMode)

def prepare (s : Settings) (schema : Schema) (tree : Tree Filter) :
    Except Report (Tree TypedFilter) :=
  s.refuse (tree.coerce schema s.validationMode)

def compile (s : Settings) (schema : Schema) (tree : Tree Filter) (start : Nat) :
    Except Report Sql.Fragment := do
  s.refuseOne (Sql.compile (← s.prepare schema tree) start)

end Settings
end Sieve
