import Sieve.Json.Shape
import Sieve.Settings.Basic

/-! Settings written as JSON documents. What a document leaves out has its standard value, and
unknown keys are passed over. -/
namespace Sieve
open Json (Reader Fault)
open Json.Reader

def skipMember {σ : Type} (limit : Nat) (draft : σ) : Reader σ := do
  colon
  skip limit
  return draft

namespace Limits

structure Draft where
  maxInputBytes : Option Nat
  maxFilters : Option Nat
  maxDepth : Option Nat

def readCount (limit : Nat) : Reader Nat :=
  naturalUpTo limit naturalBound "usize"

def step (limit : Nat) (draft : Draft) (key : String) : Reader Draft := do
  if key = "max_input_bytes" then
    let count ← field key draft.maxInputBytes (readCount limit)
    return { draft with maxInputBytes := some count }
  else if key = "max_filters" then
    return { draft with maxFilters := some (← field key draft.maxFilters (readCount limit)) }
  else if key = "max_depth" then
    return { draft with maxDepth := some (← field key draft.maxDepth (readCount limit)) }
  else skipMember limit draft

def finish (draft : Draft) : Limits :=
  ⟨draft.maxInputBytes.getD standard.maxInputBytes, draft.maxFilters.getD standard.maxFilters,
    draft.maxDepth.getD standard.maxDepth⟩

def readFields (limit : Nat) : Reader Limits := do
  let maxInputBytes ← nextField true (readCount limit) (.ok standard.maxInputBytes)
  let maxFilters ← nextField false (readCount limit) (.ok standard.maxFilters)
  let maxDepth ← nextField false (readCount limit) (.ok standard.maxDepth)
  return ⟨maxInputBytes, maxFilters, maxDepth⟩

def read (limit : Nat) : Reader Limits :=
  record limit "struct LimitsConfig" ⟨none, none, none⟩ (step limit)
    (fun draft => .ok (finish draft)) (readFields limit)

end Limits

namespace ReportSettings

structure Draft where
  typeUri : Option String
  title : Option String
  statusCode : Option Nat

def readCode (limit : Nat) : Reader Nat :=
  naturalUpTo limit 65535 "u16"

def step (limit : Nat) (draft : Draft) (key : String) : Reader Draft := do
  if key = "type_uri" then
    return { draft with typeUri := some (← field key draft.typeUri (string limit)) }
  else if key = "title" then
    return { draft with title := some (← field key draft.title (string limit)) }
  else if key = "status_code" then
    return { draft with statusCode := some (← field key draft.statusCode (readCode limit)) }
  else skipMember limit draft

def finish (draft : Draft) : ReportSettings :=
  ⟨draft.typeUri.getD standard.typeUri, draft.title.getD standard.title,
    draft.statusCode.getD standard.statusCode⟩

def readFields (limit : Nat) : Reader ReportSettings := do
  let typeUri ← nextField true (string limit) (.ok standard.typeUri)
  let title ← nextField false (string limit) (.ok standard.title)
  let statusCode ← nextField false (readCode limit) (.ok standard.statusCode)
  return ⟨typeUri, title, statusCode⟩

def read (limit : Nat) : Reader ReportSettings :=
  record limit "struct ReportConfig" ⟨none, none, none⟩ (step limit)
    (fun draft => .ok (finish draft)) (readFields limit)

end ReportSettings

namespace Settings

structure Draft where
  limits : Option Limits
  report : Option ReportSettings
  validationMode : Option ValidationMode

def readMode (limit : Nat) : Reader ValidationMode :=
  variant limit
    [(ValidationMode.failFast.name, .failFast), (ValidationMode.exhaustive.name, .exhaustive)]

def step (limit : Nat) (draft : Draft) (key : String) : Reader Draft := do
  if key = "limits" then
    return { draft with limits := some (← field key draft.limits (Limits.read limit)) }
  else if key = "report" then
    return { draft with report := some (← field key draft.report (ReportSettings.read limit)) }
  else if key = "validation_mode" then
    let mode ← field key draft.validationMode (readMode limit)
    return { draft with validationMode := some mode }
  else skipMember limit draft

def finish (draft : Draft) : Settings :=
  ⟨draft.limits.getD standard.limits, draft.report.getD standard.report,
    draft.validationMode.getD standard.validationMode⟩

def readFields (limit : Nat) : Reader Settings := do
  let limits ← nextField true (Limits.read limit) (.ok standard.limits)
  let report ← nextField false (ReportSettings.read limit) (.ok standard.report)
  let validationMode ← nextField false (readMode limit) (.ok standard.validationMode)
  return ⟨limits, report, validationMode⟩

def read (limit : Nat) : Reader Settings :=
  record limit "struct EngineConfig" ⟨none, none, none⟩ (step limit)
    (fun draft => .ok (finish draft)) (readFields limit)

def parse (text : String) : Except Fault Settings :=
  wholeText read text

end Settings
end Sieve
