import Sieve.Schema.Field

/-! Schemas: the fields of a resource that filters may name. -/
namespace Sieve

def Ordered (fields : List (String × FieldDefinition)) : Prop :=
  fields.Pairwise fun f g => f.1 < g.1

structure Schema where
  resource : String
  fields : List (String × FieldDefinition)
  ordered : Ordered fields
  sound : ∀ f ∈ fields, f.2.isSound = true

def insertField (name : String) (definition : FieldDefinition) :
    List (String × FieldDefinition) → List (String × FieldDefinition)
  | [] => [(name, definition)]
  | f :: rest =>
    if name < f.1 then (name, definition) :: f :: rest
    else f :: insertField name definition rest

theorem mem_insertField {name : String} {definition : FieldDefinition}
    {fields : List (String × FieldDefinition)} {f : String × FieldDefinition} :
    f ∈ insertField name definition fields ↔ f = (name, definition) ∨ f ∈ fields := by
  induction fields with
  | nil => simp [insertField]
  | cons g rest ih =>
    rw [insertField]
    split
    · simp
    · simp only [List.mem_cons, ih]
      grind

theorem Ordered.insertField {name : String} {fields : List (String × FieldDefinition)}
    (ordered : Ordered fields) (definition : FieldDefinition) (fresh : ∀ f ∈ fields, f.1 ≠ name) :
    Ordered (insertField name definition fields) := by
  induction fields with
  | nil => exact List.pairwise_singleton _ _
  | cons g rest ih =>
    rw [Ordered, List.pairwise_cons] at ordered
    rw [Sieve.insertField]
    split
    next before =>
      rw [Ordered, List.pairwise_cons, List.pairwise_cons]
      refine ⟨fun f inFields => ?_, ordered⟩
      rcases List.mem_cons.mp inFields with rfl | inRest
      · exact before
      · exact String.lt_trans before (ordered.1 f inRest)
    next behind =>
      have after : g.1 < name :=
        Std.lt_of_le_of_ne (String.not_lt.mp behind) (fresh g List.mem_cons_self)
      rw [Ordered, List.pairwise_cons]
      refine ⟨fun f inFields => ?_, ih ordered.2 fun f inRest => fresh f (.tail _ inRest)⟩
      rcases mem_insertField.mp inFields with rfl | inRest
      · exact after
      · exact ordered.1 f inRest

namespace Schema

def empty (resource : String) : Schema :=
  ⟨resource, [], .nil, by simp⟩

def field? (s : Schema) (name : String) : Option FieldDefinition :=
  (s.fields.find? fun f => f.1 == name).map Prod.snd

def add (s : Schema) (name : String) (definition : FieldDefinition) : Except SchemaError Schema :=
  match sound : definition.fault? name with
  | some e => .error e
  | none =>
    if fresh : ∀ f ∈ s.fields, f.1 ≠ name then
      .ok {
        resource := s.resource
        fields := insertField name definition s.fields
        ordered := s.ordered.insertField definition fresh
        sound := fun f inFields => by
          rcases mem_insertField.mp inFields with rfl | before
          · exact (definition.fault?_eq_none_iff name).mp sound
          · exact s.sound f before }
    else .error (.duplicateField name)

/-- The schema of these fields. Each definition is checked in turn, before its name is. -/
def build (resource : String) (fields : List (String × FieldDefinition)) :
    Except SchemaError Schema :=
  fields.foldlM (fun s f => s.add f.1 f.2) (empty resource)

def toJson (s : Schema) : Json :=
  .object [("resource", .string s.resource),
    ("fields", .object (s.fields.map fun f => (f.1, f.2.toJson)))]

end Schema
end Sieve
