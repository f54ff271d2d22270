import Sieve.Json.Shape
import Sieve.Schema.Basic

/-! Schemas written as JSON documents. -/
namespace Sieve
open Json (Reader Fault)
open Json.Reader

/-- A field as a document describes it: the column defaults to the name of the field, and the
operators to those of the type. -/
structure FieldEntry where
  column : Option String
  fieldType : FieldType
  operators : Option (List String)
  enumValues : Option (List String)

namespace FieldEntry

structure Draft where
  column : Option (Option String)
  fieldType : Option FieldType
  operators : Option (Option (List String))
  enumValues : Option (Option (List String))

def keys : List String :=
  ["column", "type", "operators", "enumValues"]

def expected : String := "struct FieldDocument"

def readColumn (limit : Nat) : Reader (Option String) :=
  nullable (string limit)

def readType (limit : Nat) : Reader FieldType :=
  variant limit (FieldType.all.map fun t => (t.name, t))

def readStrings (limit : Nat) : Reader (Option (List String)) :=
  nullable (listOf limit (string limit))

def step (limit : Nat) (draft : Draft) (key : String) : Reader Draft := do
  if key = "column" then
    return { draft with column := some (← field key draft.column (readColumn limit)) }
  else if key = "type" then
    return { draft with fieldType := some (← field key draft.fieldType (readType limit)) }
  else if key = "operators" then
    return { draft with operators := some (← field key draft.operators (readStrings limit)) }
  else if key = "enumValues" then
    return { draft with enumValues := some (← field key draft.enumValues (readStrings limit)) }
  else fail (.unknownField key keys)

def finish (draft : Draft) : Except Fault FieldEntry :=
  match draft.fieldType with
  | none => .error (.missingField "type")
  | some fieldType =>
    .ok ⟨draft.column.join, fieldType, draft.operators.join, draft.enumValues.join⟩

def tooShort {α : Type} (length : Nat) : Except Fault α :=
  .error (.invalidLength length (expected ++ " with 4 elements"))

def readFields (limit : Nat) : Reader FieldEntry := do
  let column ← nextField true (readColumn limit) (tooShort 0)
  let fieldType ← nextField false (readType limit) (tooShort 1)
  let operators ← nextField false (readStrings limit) (tooShort 2)
  let enumValues ← nextField false (readStrings limit) (tooShort 3)
  return ⟨column, fieldType, operators, enumValues⟩

def read (limit : Nat) : Reader FieldEntry :=
  record limit expected ⟨none, none, none, none⟩ (step limit) finish (readFields limit)

def base (entry : FieldEntry) (name : String) : FieldDefinition :=
  { FieldDefinition.new (entry.column.getD name) entry.fieldType with
    enumValues := entry.enumValues.getD [] }

def resolve (field : String) (operator : String) : Except SchemaError Operator :=
  match Operator.ofName? operator with
  | some op => .ok op
  | none => .error (.unknownOperator field operator)

def define (entry : FieldEntry) (name : String) : Except SchemaError FieldDefinition :=
  match entry.operators with
  | none => .ok (entry.base name)
  | some names => (names.mapM (resolve name)).map (entry.base name).withOperators

end FieldEntry

/-- A schema document: of fields with the same name the last stands for all, and the fields are in
the order of their names. -/
structure SchemaDocument where
  resource : String
  fields : List (String × FieldEntry)

namespace SchemaDocument

def expected : String := "struct SchemaDocument"

def putEntry (name : String) (entry : FieldEntry) :
    List (String × FieldEntry) → List (String × FieldEntry)
  | [] => [(name, entry)]
  | e :: rest =>
    if name < e.1 then (name, entry) :: e :: rest
    else if name = e.1 then (name, entry) :: rest
    else e :: putEntry name entry rest

def sortEntries (entries : List (String × FieldEntry)) : List (String × FieldEntry) :=
  entries.foldl (fun done e => putEntry e.1 e.2 done) []

def readEntries (limit : Nat) : Reader (List (String × FieldEntry)) := do
  return sortEntries (← mapOf limit (FieldEntry.read limit))

structure Draft where
  resource : Option String
  fields : Option (List (String × FieldEntry))

def step (limit : Nat) (draft : Draft) (key : String) : Reader Draft := do
  if key = "resource" then
    return { draft with resource := some (← field key draft.resource (string limit)) }
  else if key = "fields" then
    return { draft with fields := some (← field key draft.fields (readEntries limit)) }
  else fail (.unknownField key ["resource", "fields"])

def finish (draft : Draft) : Except Fault SchemaDocument :=
  match draft.resource, draft.fields with
  | none, _ => .error (.missingField "resource")
  | some _, none => .error (.missingField "fields")
  | some resource, some fields => .ok ⟨resource, fields⟩

def tooShort {α : Type} (length : Nat) : Except Fault α :=
  .error (.invalidLength length (expected ++ " with 2 elements"))

def readFields (limit : Nat) : Reader SchemaDocument := do
  let resource ← nextField true (string limit) (tooShort 0)
  let fields ← nextField false (readEntries limit) (tooShort 1)
  return ⟨resource, fields⟩

def read (limit : Nat) : Reader SchemaDocument :=
  record limit expected ⟨none, none⟩ (step limit) finish (readFields limit)

def parse (text : String) : Except Fault SchemaDocument :=
  wholeText read text

end SchemaDocument

namespace Schema

/-- The schema that a document describes. All operator names are looked up before any definition
is checked. -/
def ofDocument (document : SchemaDocument) : Except SchemaError Schema := do
  let fields ← document.fields.mapM fun e => (e.2.define e.1).map (e.1, ·)
  build document.resource fields

def parse (text : String) : Except SchemaError Schema :=
  match SchemaDocument.parse text with
  | .error fault => .error (.document fault)
  | .ok document => ofDocument document

end Schema
end Sieve
