import Sieve.Error
import Sieve.Filter
import Sieve.Settings.Basic

/-! Reports on refused filters, in the form of problem details. -/
namespace Sieve

structure Report where
  settings : ReportSettings
  errors : List FilterError
  subject : Option String

namespace Report

def ofErrors (settings : ReportSettings) (errors : List FilterError) : Report :=
  ⟨settings, errors, none⟩

def about (r : Report) (subject : String) : Report :=
  { r with subject := some subject }

def message (r : Report) : String :=
  r.settings.title ++ ": " ++ Text.joined "; " (r.errors.map FilterError.message)

def firstCode (r : Report) : String :=
  (r.errors.head?.map fun e => e.kind.code).getD "NONE"

def members (r : Report) (correlationId : String) : List (String × Json) :=
  [("type", .string r.settings.typeUri), ("title", .string r.settings.title),
    ("statusCode", .number (.whole r.settings.statusCode)),
    ("errors", .array (r.errors.map fun e => .string e.message))] ++
  optionalMember "instance" (r.subject.map .string) ++
  [("correlationId", .string correlationId)]

end Report
end Sieve
