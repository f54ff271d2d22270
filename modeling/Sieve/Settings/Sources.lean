import Sieve.Settings.Document
import Sieve.Text.Blank

/-! Where settings come from: a file that is named outright, else one that a variable names, else
the standard settings; and variables that override single limits. -/
namespace Sieve

structure SettingsFile where
  path : String
  contents : Option String

structure SettingsSources where
  namedFile : Option SettingsFile
  variableFile : Option SettingsFile
  maxFilters : Option String
  maxDepth : Option String
  maxInputBytes : Option String

inductive LoadError where
  | unreadable (path : String)
  | notSettings (path : String) (fault : Json.Fault)
  | invalidVariable (name value : String) (fault : IntegerFault)

namespace LoadError

def message : LoadError → String
  | unreadable path => s!"Failed to read config file: {path}"
  | notSettings path _ => s!"Failed to parse config file: {path}"
  | invalidVariable name value _ => s!"Invalid value for {name}: {value}"

def causes : LoadError → List String
  | unreadable _ => []
  | notSettings _ fault => [fault.message]
  | invalidVariable _ _ fault => [fault.message]

end LoadError

def maxFiltersVariable : String := "FILTER_ENGINE_MAX_FILTERS"

def maxDepthVariable : String := "FILTER_ENGINE_MAX_DEPTH"

def maxInputBytesVariable : String := "FILTER_ENGINE_MAX_INPUT_BYTES"

namespace SettingsFile

def load (file : SettingsFile) : Except LoadError Settings :=
  match file.contents with
  | none => .error (.unreadable file.path)
  | some text =>
    match Settings.parse text with
    | .error fault => .error (.notSettings file.path fault)
    | .ok settings => .ok settings

end SettingsFile

namespace Settings

/-- The number in a variable, white space around it aside, or else the number it overrides. -/
def overridden (name : String) (value : Option String) (otherwise : Nat) :
    Except LoadError Nat :=
  match value with
  | none => .ok otherwise
  | some raw =>
    match readNatural (Text.trim raw.toList) with
    | .error fault => .error (.invalidVariable name raw fault)
    | .ok n => .ok n

def overrideLimits (sources : SettingsSources) (limits : Limits) : Except LoadError Limits := do
  let maxFilters ← overridden maxFiltersVariable sources.maxFilters limits.maxFilters
  let maxDepth ← overridden maxDepthVariable sources.maxDepth limits.maxDepth
  let maxInputBytes ← overridden maxInputBytesVariable sources.maxInputBytes limits.maxInputBytes
  return ⟨maxInputBytes, maxFilters, maxDepth⟩

def load (sources : SettingsSources) : Except LoadError Settings := do
  let settings ←
    match sources.namedFile.or sources.variableFile with
    | some file => file.load
    | none => pure standard
  return { settings with limits := ← overrideLimits sources settings.limits }

end Settings
end Sieve
