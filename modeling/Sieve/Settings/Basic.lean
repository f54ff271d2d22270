import Sieve.Json.Value

/-! Settings: limits on inputs, the fixed parts of reports, and how many errors are gathered. -/
namespace Sieve

inductive ValidationMode where
  | failFast
  | exhaustive
  deriving DecidableEq

namespace ValidationMode

def name : ValidationMode → String
  | failFast => "fail_fast"
  | exhaustive => "exhaustive"

end ValidationMode

structure Limits where
  maxInputBytes : Nat
  maxFilters : Nat
  maxDepth : Nat
  deriving DecidableEq

structure ReportSettings where
  typeUri : String
  title : String
  statusCode : Nat
  deriving DecidableEq

structure Settings where
  limits : Limits
  report : ReportSettings
  validationMode : ValidationMode
  deriving DecidableEq

namespace Limits

def standard : Limits :=
  ⟨64 * 1024, 50, 8⟩

def toJson (l : Limits) : Json :=
  .object [("max_input_bytes", .number (.whole l.maxInputBytes)),
    ("max_filters", .number (.whole l.maxFilters)), ("max_depth", .number (.whole l.maxDepth))]

end Limits

namespace ReportSettings

def standard : ReportSettings :=
  ⟨"https://filter-engine.dev/problems/invalid-filter", "Invalid filter", 422⟩

def toJson (r : ReportSettings) : Json :=
  .object [("type_uri", .string r.typeUri), ("title", .string r.title),
    ("status_code", .number (.whole r.statusCode))]

end ReportSettings

namespace Settings

def standard : Settings :=
  ⟨.standard, .standard, .failFast⟩

def toJson (s : Settings) : Json :=
  .object [("limits", s.limits.toJson), ("report", s.report.toJson),
    ("validation_mode", .string s.validationMode.name)]

end Settings
end Sieve
