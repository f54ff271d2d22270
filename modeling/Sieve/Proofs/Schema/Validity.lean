import Mathlib.Data.List.Nodup
import Sieve.Proofs.Schema.Building
import Sieve.Proofs.Text.Pieces
import Sieve.Schema.Document

/-! What makes a schema valid, in terms of the texts and lists that it is made of. Whatever a schema
is made of, it is valid, and it is made of every list of fields that is. -/
namespace Sieve

section Columns

def StartsName (c : Char) : Prop :=
  ('a' ≤ c ∧ c ≤ 'z') ∨ ('A' ≤ c ∧ c ≤ 'Z') ∨ c = '_'

def ContinuesName (c : Char) : Prop :=
  StartsName c ∨ ('0' ≤ c ∧ c ≤ '9')

inductive Identifier : List Char → Prop
  | name {first : Char} {rest : List Char} (starts : StartsName first)
      (continues : ∀ c ∈ rest, ContinuesName c) : Identifier (first :: rest)

inductive SpellsColumn : List Char → Prop
  | plain {name : List Char} (isName : Identifier name) : SpellsColumn name
  | qualified {table name : List Char} (isTable : Identifier table) (isName : Identifier name) :
      SpellsColumn (table ++ '.' :: name)

theorem startsName_iff {c : Char} : (c.isAlpha || c == '_') = true ↔ StartsName c := by
  have capital : c.isUpper = true ↔ 'A' ≤ c ∧ c ≤ 'Z' := decide_eq_true_iff
  have small : c.isLower = true ↔ 'a' ≤ c ∧ c ≤ 'z' :=
    (Bool.and_eq_true_iff).trans (and_congr decide_eq_true_iff decide_eq_true_iff)
  have letter : c.isAlpha = true ↔ c.isUpper = true ∨ c.isLower = true := Bool.or_eq_true_iff
  rw [Bool.or_eq_true, letter, capital, small, beq_iff_eq, or_assoc, or_left_comm, StartsName]

theorem continuesName_iff {c : Char} : (c.isAlphanum || c == '_') = true ↔ ContinuesName c := by
  have digit : c.isDigit = true ↔ '0' ≤ c ∧ c ≤ '9' :=
    (Bool.and_eq_true_iff).trans (and_congr decide_eq_true_iff decide_eq_true_iff)
  have either : c.isAlphanum = true ↔ c.isAlpha = true ∨ c.isDigit = true := Bool.or_eq_true_iff
  rw [ContinuesName, ← startsName_iff, Bool.or_eq_true, Bool.or_eq_true, either, digit,
    or_right_comm]

theorem isIdentifier_iff {s : List Char} : isIdentifier s = true ↔ Identifier s := by
  cases s with
  | nil => exact ⟨nofun, nofun⟩
  | cons first rest =>
    rw [isIdentifier, Bool.and_eq_true, startsName_iff, List.all_eq_true]
    constructor
    · rintro ⟨starts, continues⟩
      exact .name starts fun c member => continuesName_iff.mp (continues c member)
    · rintro ⟨starts, continues⟩
      exact ⟨starts, fun c member => continuesName_iff.mpr (continues c member)⟩

theorem Identifier.noPoint {s : List Char} (identifier : Identifier s) : '.' ∉ s := by
  obtain ⟨starts, continues⟩ := identifier
  have apart : ¬ContinuesName '.' := by
    rw [← continuesName_iff]
    decide
  rw [List.mem_cons, not_or]
  refine ⟨?_, fun member => apart (continues _ member)⟩
  rintro rfl
  exact apart (.inl starts)

/-- The columns that a schema takes are the ones that are spelled as an identifier or as two. -/
theorem isColumn_iff {column : String} :
    isColumn column = true ↔ SpellsColumn column.toList := by
  have alone (name : List Char) : ['.'].intercalate [name] = name := by simp [List.intercalate]
  have joined (table name : List Char) :
      ['.'].intercalate [table, name] = table ++ '.' :: name := by simp [List.intercalate]
  unfold isColumn
  constructor
  · intro sound
    have whole := Text.intercalate_pieces '.' column.toList
    split at sound
    next name pieces =>
      rw [pieces, alone] at whole
      exact whole ▸ .plain (isIdentifier_iff.mp sound)
    next table name pieces =>
      rw [Bool.and_eq_true] at sound
      rw [pieces, joined] at whole
      exact whole ▸ .qualified (isIdentifier_iff.mp sound.1) (isIdentifier_iff.mp sound.2)
    next => cases sound
  · generalize column.toList = s
    rintro (@⟨name, isName⟩ | @⟨table, name, isTable, isName⟩)
    · have pieces : Text.pieces '.' s = [s] := by
        have cut : Text.pieces '.' (['.'].intercalate [s]) = [s] :=
          Text.pieces_intercalate (by simpa using isName.noPoint) (by simp)
        rwa [alone] at cut
      rw [pieces]
      exact isIdentifier_iff.mpr isName
    · have pieces : Text.pieces '.' (table ++ '.' :: name) = [table, name] := by
        have cut : Text.pieces '.' (['.'].intercalate [table, name]) = [table, name] :=
          Text.pieces_intercalate (by simpa using ⟨isTable.noPoint, isName.noPoint⟩) (by simp)
        rwa [joined] at cut
      rw [pieces]
      exact Bool.and_eq_true .. ▸ ⟨isIdentifier_iff.mpr isTable, isIdentifier_iff.mpr isName⟩

end Columns

theorem FieldType.permits_iff {t : FieldType} {op : Operator} :
    t.permits op = true ↔ op ∈ t.defaultOperators ∨ op = .isNull ∨ op = .isNotNull := by
  have nullCheck : op.isNullCheck = true ↔ op = .isNull ∨ op = .isNotNull := by
    cases op <;> simp [Operator.isNullCheck]
  rw [permits, Bool.or_eq_true, nullCheck, List.contains_iff_mem, or_comm]

theorem withoutRepeats_sublist (ops : List Operator) : (withoutRepeats ops).Sublist ops := by
  induction ops with
  | nil => exact .slnil
  | cons op rest ih => exact (List.filter_sublist.trans ih).cons_cons op

namespace FieldDefinition

structure Valid (d : FieldDefinition) : Prop where
  column : SpellsColumn d.column.toList
  operators : d.operators ≠ []
  permitted : ∀ op ∈ d.operators,
    op ∈ d.fieldType.defaultOperators ∨ op = .isNull ∨ op = .isNotNull
  enumValues : d.enumValues ≠ [] ↔ d.fieldType = .enumeration

theorem isSound_iff {d : FieldDefinition} : d.isSound = true ↔ d.Valid := by
  have enumValues : (d.enumValues.isEmpty != (d.fieldType == .enumeration)) = true ↔
      (d.enumValues ≠ [] ↔ d.fieldType = .enumeration) := by
    rw [bne_iff_ne, ne_eq, Bool.eq_iff_iff, List.isEmpty_iff, beq_iff_eq]
    exact not_iff
  simp only [isSound, Bool.and_eq_true, isColumn_iff, List.all_eq_true, FieldType.permits_iff,
    enumValues, Bool.not_eq_true', List.isEmpty_eq_false_iff]
  constructor
  · rintro ⟨⟨⟨column, operators⟩, permitted⟩, enumValues⟩
    exact ⟨column, operators, permitted, enumValues⟩
  · rintro ⟨column, operators, permitted, enumValues⟩
    exact ⟨⟨⟨column, operators⟩, permitted⟩, enumValues⟩

theorem valid_new {column : String} {t : FieldType} (spelled : SpellsColumn column.toList)
    (single : t ≠ .enumeration) : (new column t).Valid where
  column := spelled
  operators := by cases t <;> exact List.cons_ne_nil _ _
  permitted _ member := .inl member
  enumValues := iff_of_false (absurd rfl) single

theorem valid_enumeration {column : String} {values : List String}
    (spelled : SpellsColumn column.toList) (listed : values ≠ []) :
    (enumeration column values).Valid where
  column := spelled
  operators := List.cons_ne_nil _ _
  permitted _ member := .inl member
  enumValues := iff_of_true listed rfl

theorem Valid.withOperators {d : FieldDefinition} {ops : List Operator} (valid : d.Valid)
    (some : ops ≠ []) (permitted : ∀ op ∈ ops, d.fieldType.permits op = true) :
    (d.withOperators ops).Valid where
  column := valid.column
  operators := by
    obtain ⟨op, member⟩ := List.exists_mem_of_ne_nil ops some
    exact List.ne_nil_of_mem (mem_withoutRepeats.mpr member)
  permitted op member := FieldType.permits_iff.mp (permitted op (mem_withoutRepeats.mp member))
  enumValues := valid.enumValues

end FieldDefinition

namespace Schema

/-- What every schema is: a table of valid fields, each with a name of its own, and none that lists an
operator twice. -/
structure Valid (s : Schema) : Prop where
  names : (s.fields.map Prod.fst).Nodup
  fields : ∀ f ∈ s.fields, f.2.Valid
  operators : ∀ f ∈ s.fields, f.2.operators.Nodup

theorem valid (s : Schema) : s.Valid where
  names := s.nodup_names
  fields f member := FieldDefinition.isSound_iff.mp (s.sound f member)
  operators f _ := f.2.distinct

theorem field?_eq_some_iff {s : Schema} {name : String} {d : FieldDefinition} :
    s.field? name = some d ↔ (name, d) ∈ s.fields := by
  have found_mem {e : FieldDefinition} (found : s.field? name = some e) : (name, e) ∈ s.fields := by
    obtain ⟨f, search, rfl⟩ := Option.map_eq_some_iff.mp found
    have named : f.1 = name := by simpa using List.find?_some search
    exact named ▸ List.mem_of_find?_eq_some search
  refine ⟨found_mem, fun member => ?_⟩
  cases found : s.field? name with
  | none =>
    have absent := List.find?_eq_none.mp (Option.map_eq_none_iff.mp found) (name, d) member
    simp at absent
  | some e =>
    have same := List.inj_on_of_nodup_map s.nodup_names (found_mem found) member rfl
    exact congrArg some (congrArg Prod.snd same)

theorem build_self (s : Schema) : build s.resource s.fields = .ok s :=
  build_eq_ok_iff.mpr ⟨s.sound, s.nodup_names, rfl, fun _ => Iff.rfl⟩

theorem build_eq_ok_iff_of_perm {resource : String} {fields others : List (String × FieldDefinition)}
    (perm : fields.Perm others) {s : Schema} :
    build resource fields = .ok s ↔ build resource others = .ok s := by
  simp only [build_eq_ok_iff, perm.mem_iff, (perm.map Prod.fst).nodup_iff]

/-- A schema is built of the lists of fields with different names and valid definitions, and it maps each
name to its definition, whatever the order of the list. What a definition allows is listed in the order
in which it was given, each operator once. A text gives no other schemas. -/
theorem build_iff_valid (resource : String) (fields : List (String × FieldDefinition)) :
    ((∃ s, build resource fields = .ok s) ↔
      (fields.map Prod.fst).Nodup ∧ ∀ f ∈ fields, f.2.Valid) ∧
    (∀ s, build resource fields = .ok s → s.resource = resource ∧ s.Valid ∧
      (∀ f, f ∈ s.fields ↔ f ∈ fields) ∧
      ∀ name d, s.field? name = some d ↔ (name, d) ∈ fields) ∧
    (∀ others, fields.Perm others →
      ∀ s, build resource fields = .ok s ↔ build resource others = .ok s) ∧
    (∀ (d : FieldDefinition) (ops : List Operator), (d.withOperators ops).operators.Nodup ∧
      (d.withOperators ops).operators.Sublist ops ∧
      ∀ op, op ∈ (d.withOperators ops).operators ↔ op ∈ ops) ∧
    ∀ text s, parse text = .ok s → s.Valid ∧ build s.resource s.fields = .ok s := by
  refine ⟨?_, fun s built => ?_, fun others perm s => build_eq_ok_iff_of_perm perm,
    fun d ops => ?_, fun text s _ => ⟨s.valid, s.build_self⟩⟩
  · rw [exists_build_iff, and_comm]
    simp only [FieldDefinition.isSound_iff]
  · obtain ⟨_, _, sameResource, sameFields⟩ := build_eq_ok_iff.mp built
    exact ⟨sameResource, s.valid, sameFields,
      fun name d => field?_eq_some_iff.trans (sameFields (name, d))⟩
  · exact ⟨nodup_withoutRepeats ops, withoutRepeats_sublist ops, fun _ => mem_withoutRepeats⟩

/-- An enumeration of a table that is named, with operators that are repeated, and a text, in both orders;
and columns that are almost identifiers. -/
theorem build_iff_valid_films :
    let genre := (FieldDefinition.enumeration "f.genre" ["drama", "comedy"]).withOperators
      [.eq, .isNull, .eq, .isNotNull, .isNull]
    let title := FieldDefinition.new "title" .string
    genre.operators = [.eq, .isNull, .isNotNull] ∧
    (∃ s, build "films" [("title", title), ("genre", genre)] = .ok s ∧
      build "films" [("genre", genre), ("title", title)] = .ok s ∧
      s.field? "genre" = some genre ∧ s.field? "title" = some title ∧ s.field? "year" = none) ∧
    (¬∃ s, build "films" [("title", title), ("genre", genre), ("title", title)] = .ok s) ∧
    ∀ column ∈ ["title\n", "f.title.en", "títle", "f.", ""],
      ¬∃ s, build "films" [("title", .new column .string)] = .ok s := by
  intro genre title
  refine ⟨rfl, ?_, ?_, fun column member made => ?_⟩
  · obtain ⟨made, mapped, ordered, _⟩ :=
      build_iff_valid "films" [("title", title), ("genre", genre)]
    have valid : ∀ f ∈ [("title", title), ("genre", genre)], f.2.Valid := by
      have titleValid : title.Valid := FieldDefinition.valid_new (isColumn_iff.mp (by decide)) (by decide)
      have genreValid : genre.Valid :=
        (FieldDefinition.valid_enumeration (isColumn_iff.mp (by decide)) (by simp)).withOperators
          (by simp) (by decide)
      simp only [List.forall_mem_cons]
      exact ⟨titleValid, genreValid, nofun⟩
    obtain ⟨s, built⟩ := made.mpr ⟨by decide, valid⟩
    obtain ⟨_, _, _, fields⟩ := mapped s built
    refine ⟨s, built, (ordered _ (.swap ..) s).mp built, (fields _ _).mpr (by simp),
      (fields _ _).mpr (by simp), ?_⟩
    rw [Option.eq_none_iff_forall_ne_some]
    intro d found
    simpa using (fields _ _).mp found
  · intro made
    have distinct := ((build_iff_valid "films" _).1.mp made).1
    exact absurd distinct (by decide)
  · have valid := ((build_iff_valid "films" _).1.mp made).2 _ List.mem_cons_self
    have unsound : ∀ other ∈ ["title\n", "f.title.en", "títle", "f.", ""],
        isColumn other = false := by
      decide +kernel
    exact absurd (isColumn_iff.mpr valid.column) (by simp [FieldDefinition.new, unsound column member])

end Schema
end Sieve
