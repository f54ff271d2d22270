import Sieve.Proofs.Json.Written
import Sieve.Proofs.Schema.Loading

/-! Schemas written as JSON text and loaded again. -/
namespace Sieve
open Json (Plain)
open Json.Reader

attribute [ext] FieldDefinition

namespace FieldDefinition

variable (d : FieldDefinition) (name : String)

/-- The entry that is written for a definition: all of its parts, but no values where there are none. -/
def entry : FieldEntry :=
  ⟨some d.column, d.fieldType, some (d.operators.map Operator.name),
    if d.enumValues.isEmpty then none else some d.enumValues⟩

theorem plain_strings {depth : Nat} (texts : List String) :
    Plain (depth + 1) (.array (texts.map .string)) := by
  refine .array fun item member => ?_
  obtain ⟨t, _, rfl⟩ := List.mem_map.mp member
  exact .string t

theorem map_string_name (ops : List Operator) :
    (ops.map fun op => Json.string op.name) = (ops.map Operator.name).map .string := by
  rw [List.map_map]
  rfl

theorem plain_toJson (depth : Nat) : Plain (depth + 2) d.toJson := by
  rw [toJson, map_string_name]
  refine .object (List.forall_mem_append.mpr ⟨?_, ?_⟩)
  · exact List.forall_mem_cons.mpr ⟨.string _, List.forall_mem_cons.mpr ⟨.string _,
      List.forall_mem_cons.mpr ⟨plain_strings _, nofun⟩⟩⟩
  · split
    · exact nofun
    · exact List.forall_mem_cons.mpr ⟨plain_strings d.enumValues, nofun⟩

theorem isListOf_strings (texts : List String) :
    IsListOf IsString (.array (texts.map .string)) texts :=
  ⟨_, rfl, List.forall₂_map_left_iff.mpr (List.forall₂_same.mpr fun _ _ => rfl)⟩

/-- What is written for a definition spells its entry. -/
theorem isEntry_toJson : FieldEntry.IsEntry d.toJson d.entry := by
  have typed : IsVariant (FieldType.all.map fun t => (t.name, t)) (.string d.fieldType.name)
      d.fieldType :=
    ⟨d.fieldType.name, .inl rfl, by cases d.fieldType <;> decide⟩
  have names := isListOf_strings (d.operators.map Operator.name)
  rw [toJson, entry, map_string_name]
  split
  next without =>
    exact .members (.cons (.column rfl (.some rfl)) (.cons (.fieldType rfl typed)
      (.cons (.operators rfl (.some names)) (.nil _)))) rfl
  next =>
    exact .members (.cons (.column rfl (.some rfl)) (.cons (.fieldType rfl typed)
      (.cons (.operators rfl (.some names))
        (.cons (.enumValues rfl (.some (isListOf_strings d.enumValues))) (.nil _))))) rfl

theorem operatorsKnown_entry : d.entry.OperatorsKnown := by
  rintro _ ⟨⟩ name member
  obtain ⟨op, _, rfl⟩ := List.mem_map.mp member
  rw [Operator.ofName?_name]
  rfl

theorem described_entry : d.entry.described name = d := by
  have names : (d.operators.map Operator.name).filterMap Operator.ofName? = d.operators := by
    have read : Operator.ofName? ∘ Operator.name = some := funext Operator.ofName?_name
    rw [List.filterMap_map, read, List.filterMap_some]
  have operators : withoutRepeats ((d.operators.map Operator.name).filterMap Operator.ofName?) =
      d.operators := by
    rw [names, withoutRepeats_of_nodup d.distinct]
  have values : (if d.enumValues.isEmpty then none else some d.enumValues).getD [] =
      d.enumValues := by
    split
    next without => exact (List.isEmpty_iff.mp without).symm
    next => rfl
  have column : (d.entry.whole name).column = d.column := by
    unfold FieldEntry.whole
    split <;> rfl
  have fieldType : (d.entry.definition name).fieldType = d.fieldType := FieldEntry.fieldType_definition
  exact FieldDefinition.ext column fieldType operators values

end FieldDefinition

namespace Schema

def entries (s : Schema) : List (String × FieldEntry) :=
  s.fields.map fun f => (f.1, f.2.entry)

theorem plain_toJson (s : Schema) (depth : Nat) : Plain (depth + 4) s.toJson := by
  have fields : Plain (depth + 3) (.object (s.fields.map fun f => (f.1, f.2.toJson))) := by
    refine .object fun m member => ?_
    obtain ⟨f, _, rfl⟩ := List.mem_map.mp member
    exact f.2.plain_toJson depth
  exact .object (List.forall_mem_cons.mpr ⟨.string _, List.forall_mem_cons.mpr ⟨fields, nofun⟩⟩)

theorem isDocument_toJson (s : Schema) :
    SchemaDocument.IsDocument s.toJson s.resource s.entries := by
  refine .resourceFirst ⟨_, rfl, ?_⟩
  rw [entries, List.forall₂_map_left_iff, List.forall₂_map_right_iff, List.forall₂_same]
  exact fun f _ => ⟨rfl, f.2.isEntry_toJson⟩

theorem names_entries (s : Schema) : s.entries.map Prod.fst = s.fields.map Prod.fst := by
  rw [entries, List.map_map]
  rfl

theorem described_entries (s : Schema) :
    s.entries.map (fun e => (e.1, e.2.described e.1)) = s.fields := by
  have back : (fun e : String × FieldEntry => (e.1, e.2.described e.1)) ∘
      (fun f : String × FieldDefinition => (f.1, f.2.entry)) = id :=
    funext fun f => Prod.ext rfl (f.2.described_entry f.1)
  rw [entries, List.map_map, back, List.map_id]

theorem operatorsKnown_entries (s : Schema) : ∀ e ∈ s.entries, e.2.OperatorsKnown := by
  intro e member
  obtain ⟨f, _, rfl⟩ := List.mem_map.mp member
  exact f.2.operatorsKnown_entry

/-- A schema is loaded from the JSON text that is written for it. -/
theorem parse_text_toJson (s : Schema) : parse s.toJson.text = .ok s := by
  have transcribed : Json.transcribe s.toJson.text = .ok s.toJson :=
    Json.transcribe_text (s.plain_toJson _)
  have kept : SchemaDocument.latest s.entries = s.entries :=
    SchemaDocument.latest_of_nodup (s.names_entries ▸ s.nodup_names)
  have same (f : String × FieldDefinition) :
      f ∈ (SchemaDocument.sortEntries s.entries).map (fun e => (e.1, e.2.described e.1)) ↔
        f ∈ s.fields := by
    rw [← s.described_entries, List.mem_map, List.mem_map]
    simp only [SchemaDocument.mem_sortEntries, kept]
  rw [parse_eq_build transcribed s.isDocument_toJson s.operatorsKnown_entries, build_eq_ok_iff,
    names_described]
  exact ⟨fun f member => s.sound f ((same f).mp member), SchemaDocument.nodup_sortEntries _, rfl,
    fun f => (same f).symm⟩

end Schema
end Sieve
