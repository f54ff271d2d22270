import Mathlib.Data.List.Forall2
import Sieve.Document

/-! The grammar of filter documents: which JSON values spell a tree of filters, and which tree. It
says nothing about limits, nor about the order in which a document is read. -/
namespace Sieve.Document

inductive Element : Json → RawValue → Prop
  | bool (b : Bool) : Element (.bool b) (.bool b)
  | number (n : Json.Number) : Element (.number n) (.number n)
  | string (s : String) : Element (.string s) (.text s)

inductive Operand : Json → Option RawValue → Prop
  | null : Operand .null none
  | single {item : Json} {v : RawValue} (element : Element item v) : Operand item (some v)
  | list {items : List Json} {values : List RawValue}
      (elements : List.Forall₂ Element items values) : Operand (.array items) (some (.list values))

/-- One member of a flat document, and the filters that it spells: a null check, a test for
equality, or one filter for each operator with its operand. -/
inductive Member : String × Json → List Filter → Prop
  | null (field : String) : Member (field, .null) [⟨field, "isNull", none⟩]
  | literal {field : String} {item : Json} {v : RawValue} (operand : Operand item (some v)) :
      Member (field, item) [⟨field, "eq", some v⟩]
  | operators {field : String} {pairs : List (String × Json)} {filters : List Filter}
      (nonempty : pairs ≠ [])
      (each : List.Forall₂ (fun (pair : String × Json) (f : Filter) =>
        f.field = field ∧ f.operator = pair.1 ∧ Operand pair.2 f.value) pairs filters) :
      Member (field, .object pairs) filters

/-- A string with something else than white space in it, and what is left when the white space
around that is dropped. -/
def Names (item : Json) (name : String) : Prop :=
  ∃ s, item = .string s ∧ (∃ c ∈ s.toList, Text.isBlank c = false) ∧ name = Text.trimmed s

structure Entry (members : List (String × Json)) (f : Filter) : Prop where
  keys : ∀ m ∈ members, m.1 ∈ ["field", "op", "operator", "value"]
  field : ∃ item, Json.member? members "field" = some item ∧ Names item f.field
  operator : match (Json.member? members "op").or (Json.member? members "operator") with
    | none => f.operator = "eq"
    | some item => Names item f.operator
  value : match Json.member? members "value" with
    | none => f.value = none
    | some item => Operand item f.value

inductive Joined (members : List (String × Json)) : Connective → Prop
  | absent (missing : Json.member? members "operator" = none) : Joined members .and
  | null (null : Json.member? members "operator" = some .null) : Joined members .and
  | named {s : String} {c : Connective}
      (given : Json.member? members "operator" = some (.string s))
      (same : Text.sameIgnoringCase s c.name = true) : Joined members c

inductive Listed (members : List (String × Json)) (key : String) : List Json → Prop
  | absent (missing : Json.member? members key = none) : Listed members key []
  | null (null : Json.member? members key = some .null) : Listed members key []
  | list {items : List Json} (given : Json.member? members key = some (.array items)) :
      Listed members key items

inductive Group : Json → Tree Filter → Prop
  | object {members : List (String × Json)} {c : Connective} {entries objects : List Json}
      {filters : List Filter} {groups : List (Tree Filter)}
      (keys : ∀ m ∈ members, m.1 ∈ ["operator", "filters", "groups"])
      (joined : Joined members c)
      (entriesListed : Listed members "filters" entries)
      (filtersSpelled : List.Forall₂ (fun entry f => ∃ ms, entry = .object ms ∧ Entry ms f)
        entries filters)
      (objectsListed : Listed members "groups" objects)
      (groupsSpelled : List.Forall₂ Group objects groups) :
      Group (.object members) (.group c filters groups)

def TreeForm (members : List (String × Json)) : Prop :=
  ∃ key ∈ ["filters", "groups"], ∃ items, Json.member? members key = some (.array items)

inductive Spells : Json → Tree Filter → Prop
  | flat {members : List (String × Json)} {parts : List (List Filter)} (form : ¬TreeForm members)
      (each : List.Forall₂ Member members parts) : Spells (.object members) (.all parts.flatten)
  | tree {members : List (String × Json)} {t : Tree Filter} (form : TreeForm members)
      (group : Group (.object members) t) : Spells (.object members) t

end Sieve.Document
