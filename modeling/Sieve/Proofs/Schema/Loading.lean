import Sieve.Proofs.Json.Shape
import Sieve.Proofs.Schema.Building
import Sieve.Proofs.Schema.Latest
import Sieve.Proofs.Tree.Walk

/-! Schemas loaded from documents and schemas built field by field. A document that spells fields of
different names gives the schema that is built of them, or none if there is none. Of fields with the
same name a document keeps the last, where building refuses them. -/
namespace Sieve
open Json (Reader)
open Json.Reader

namespace FieldEntry

inductive Spelled : Draft → String × Json → Draft → Prop
  | column {d : Draft} {j : Json} {column : Option String} (fresh : d.column = none)
      (value : Nullable IsString j column) :
      Spelled d ("column", j) { d with column := some column }
  | fieldType {d : Draft} {j : Json} {t : FieldType} (fresh : d.fieldType = none)
      (value : IsVariant (FieldType.all.map fun t => (t.name, t)) j t) :
      Spelled d ("type", j) { d with fieldType := some t }
  | operators {d : Draft} {j : Json} {names : Option (List String)} (fresh : d.operators = none)
      (value : Nullable (IsListOf IsString) j names) :
      Spelled d ("operators", j) { d with operators := some names }
  | enumValues {d : Draft} {j : Json} {values : Option (List String)} (fresh : d.enumValues = none)
      (value : Nullable (IsListOf IsString) j values) :
      Spelled d ("enumValues", j) { d with enumValues := some values }

inductive InOrder : List Json → FieldEntry → Prop
  | all {c t o v : Json} {column : Option String} {fieldType : FieldType}
      {operators enumValues : Option (List String)} (columnIs : Nullable IsString c column)
      (typeIs : IsVariant (FieldType.all.map fun t => (t.name, t)) t fieldType)
      (operatorsIs : Nullable (IsListOf IsString) o operators)
      (valuesIs : Nullable (IsListOf IsString) v enumValues) :
      InOrder [c, t, o, v] ⟨column, fieldType, operators, enumValues⟩

def IsEntry : Json → FieldEntry → Prop :=
  IsRecord Spelled ⟨none, none, none, none⟩ finish InOrder

variable (limit : Nat)

theorem takes_readColumn : Takes limit (Nullable IsString) (readColumn limit) :=
  (takes_string limit).nullable nofun

theorem takes_readStrings : Takes limit (Nullable (IsListOf IsString)) (readStrings limit) := by
  apply (takes_string limit).listOf.nullable
  rintro _ ⟨_, ⟨⟩, _⟩

theorem takes_readType :
    Takes limit (IsVariant (FieldType.all.map fun t => (t.name, t))) (readType limit) :=
  takes_variant limit _

theorem stepTakes : StepTakes limit Spelled (step limit) := by
  intro depth d name s begun j rest behind value next spelled
  unfold step
  cases spelled with
  | column fresh column =>
    rw [if_pos rfl, fresh]
    exact bind_of_ok (field_of_fresh behind (takes_readColumn limit _ _ _ _ value _ column))
  | fieldType fresh fieldType =>
    rw [if_neg (by decide), if_pos rfl, fresh]
    exact bind_of_ok (field_of_fresh behind (takes_readType limit _ _ _ _ value _ fieldType))
  | operators fresh names =>
    rw [if_neg (by decide), if_neg (by decide), if_pos rfl, fresh]
    exact bind_of_ok (field_of_fresh behind (takes_readStrings limit _ _ _ _ value _ names))
  | enumValues fresh values =>
    rw [if_neg (by decide), if_neg (by decide), if_neg (by decide), if_pos rfl, fresh]
    exact bind_of_ok (field_of_fresh behind (takes_readStrings limit _ _ _ _ value _ values))

theorem fieldsTake : FieldsTake limit InOrder (readFields limit) := by
  intro inner left s js rest reads x inOrder
  cases inOrder with
  | all columnIs typeIs operatorsIs valuesIs =>
    obtain _ | ⟨more₁, item₁, reads⟩ := reads
    obtain _ | ⟨more₂, item₂, reads⟩ := reads
    obtain _ | ⟨more₃, item₃, reads⟩ := reads
    obtain _ | ⟨more₄, item₄, reads⟩ := reads
    obtain ⟨ended, closed⟩ | _ := reads
    refine ⟨_, ?_, (closeList_of_hasItem ended).trans closed⟩
    have column := takes_readColumn limit _ _ _ _ item₁ _ columnIs
    have fieldType := takes_readType limit _ _ _ _ item₂ _ typeIs
    have operators := takes_readStrings limit _ _ _ _ item₃ _ operatorsIs
    have enumValues := takes_readStrings limit _ _ _ _ item₄ _ valuesIs
    exact (bind_of_ok (nextField_of_item more₁ column)).trans
      ((bind_of_ok (nextField_of_item more₂ fieldType)).trans
        ((bind_of_ok (nextField_of_item more₃ operators)).trans
          (bind_of_ok (nextField_of_item more₄ enumValues))))

theorem takes_read : Takes limit IsEntry (read limit) :=
  takes_record (stepTakes limit) (fieldsTake limit)

end FieldEntry

namespace SchemaDocument

/-- A document as it is written, with its entries in the order of the text: an object of the resource
and the fields, in this order or the other, or a list of both. -/
inductive IsDocument : Json → String → List (String × FieldEntry) → Prop
  | resourceFirst {resource : String} {j : Json} {entries : List (String × FieldEntry)}
      (fields : IsMapOf FieldEntry.IsEntry j entries) :
      IsDocument (.object [("resource", .string resource), ("fields", j)]) resource entries
  | fieldsFirst {resource : String} {j : Json} {entries : List (String × FieldEntry)}
      (fields : IsMapOf FieldEntry.IsEntry j entries) :
      IsDocument (.object [("fields", j), ("resource", .string resource)]) resource entries
  | inOrder {resource : String} {j : Json} {entries : List (String × FieldEntry)}
      (fields : IsMapOf FieldEntry.IsEntry j entries) :
      IsDocument (.array [.string resource, j]) resource entries

inductive Spelled : Draft → String × Json → Draft → Prop
  | resource {d : Draft} {resource : String} (fresh : d.resource = none) :
      Spelled d ("resource", .string resource) { d with resource := some resource }
  | fields {d : Draft} {j : Json} {entries : List (String × FieldEntry)} (fresh : d.fields = none)
      (value : IsMapOf FieldEntry.IsEntry j entries) :
      Spelled d ("fields", j) { d with fields := some (sortEntries entries) }

inductive InOrder : List Json → SchemaDocument → Prop
  | all {resource : String} {j : Json} {entries : List (String × FieldEntry)}
      (fields : IsMapOf FieldEntry.IsEntry j entries) :
      InOrder [.string resource, j] ⟨resource, sortEntries entries⟩

theorem isRecord_of_isDocument {j : Json} {resource : String} {entries : List (String × FieldEntry)}
    (spelled : IsDocument j resource entries) :
    IsRecord Spelled ⟨none, none⟩ finish InOrder j ⟨resource, sortEntries entries⟩ := by
  cases spelled with
  | resourceFirst fields =>
    exact .members (.cons (.resource rfl) (.cons (.fields rfl fields) (.nil _))) rfl
  | fieldsFirst fields =>
    exact .members (.cons (.fields rfl fields) (.cons (.resource rfl) (.nil _))) rfl
  | inOrder fields => exact .list (.all fields)

variable (limit : Nat)

theorem readEntries_eq_ok {depth : Nat} {s rest : List Char} {j : Json}
    {entries : List (String × FieldEntry)} (read : transcript limit depth s = .ok (j, rest))
    (spelled : IsMapOf FieldEntry.IsEntry j entries) :
    readEntries limit s = .ok (sortEntries entries, rest) :=
  bind_of_ok ((FieldEntry.takes_read limit).mapOf _ _ _ _ read _ spelled)

theorem stepTakes : StepTakes limit Spelled (step limit) := by
  intro depth d name s begun j rest behind value next spelled
  unfold step
  cases spelled with
  | resource fresh =>
    rw [if_pos rfl, fresh]
    exact bind_of_ok (field_of_fresh behind (takes_string limit _ _ _ _ value _ rfl))
  | fields fresh entries =>
    rw [if_neg (by decide), if_pos rfl, fresh]
    exact bind_of_ok (field_of_fresh behind (readEntries_eq_ok limit value entries))

theorem fieldsTake : FieldsTake limit InOrder (readFields limit) := by
  intro inner left s js rest reads document inOrder
  cases inOrder with
  | all fields =>
    obtain _ | ⟨more₁, item₁, reads⟩ := reads
    obtain _ | ⟨more₂, item₂, reads⟩ := reads
    obtain ⟨ended, closed⟩ | _ := reads
    refine ⟨_, ?_, (closeList_of_hasItem ended).trans closed⟩
    have resource := takes_string limit _ _ _ _ item₁ _ rfl
    exact (bind_of_ok (nextField_of_item more₁ resource)).trans
      (bind_of_ok (nextField_of_item more₂ (readEntries_eq_ok limit item₂ fields)))

theorem parse_of_isDocument {text resource : String} {w : Json}
    {entries : List (String × FieldEntry)} (transcribed : Json.transcribe text = .ok w)
    (spelled : IsDocument w resource entries) :
    parse text = .ok ⟨resource, sortEntries entries⟩ :=
  wholeText_of_takes (fun limit => takes_record (stepTakes limit) (fieldsTake limit)) transcribed
    (isRecord_of_isDocument spelled)

end SchemaDocument

namespace FieldEntry

def whole (entry : FieldEntry) (name : String) : FieldDefinition :=
  if entry.fieldType = .enumeration then
    .enumeration (entry.column.getD name) (entry.enumValues.getD [])
  else .new (entry.column.getD name) entry.fieldType

def definition (entry : FieldEntry) (name : String) : FieldDefinition :=
  match entry.operators with
  | none => entry.whole name
  | some names => (entry.whole name).withOperators (names.filterMap Operator.ofName?)

def ListsProperly (entry : FieldEntry) : Prop :=
  entry.fieldType ≠ .enumeration → entry.enumValues.getD [] = []

def OperatorsKnown (entry : FieldEntry) : Prop :=
  ∀ names, entry.operators = some names → ∀ name ∈ names, (Operator.ofName? name).isSome = true

variable {entry : FieldEntry} {name : String}

theorem mapM_resolve {names : List String}
    (known : ∀ name ∈ names, (Operator.ofName? name).isSome = true) :
    names.mapM (resolve name) = .ok (names.filterMap Operator.ofName?) := by
  induction names with
  | nil => rfl
  | cons operator rest ih =>
    obtain ⟨first, later⟩ := List.forall_mem_cons.mp known
    obtain ⟨op, found⟩ := Option.isSome_iff_exists.mp first
    have resolved : resolve name operator = .ok op := by rw [resolve, found]
    rw [List.mapM_cons, resolved, ih later, List.filterMap_cons, found]
    rfl

/-- The definition that a document gives to an entry: the one that is made of it, but with all values
that are listed. -/
def described (entry : FieldEntry) (name : String) : FieldDefinition :=
  { entry.definition name with enumValues := entry.enumValues.getD [] }

theorem base_eq : entry.base name =
    { entry.whole name with enumValues := entry.enumValues.getD [] } := by
  rw [base, whole]
  split
  next typed => rw [typed]; rfl
  next => rfl

theorem define_eq_ok (known : entry.OperatorsKnown) :
    entry.define name = .ok (entry.described name) := by
  unfold define described definition
  cases given : entry.operators with
  | none => exact congrArg Except.ok base_eq
  | some names =>
    dsimp only
    rw [mapM_resolve (known names given), base_eq]
    rfl

theorem fieldType_definition : (entry.definition name).fieldType = entry.fieldType := by
  have typed : (entry.whole name).fieldType = entry.fieldType := by
    unfold whole
    split
    next typed => exact typed.symm
    next => rfl
  unfold definition
  cases entry.operators with
  | none => exact typed
  | some names => exact typed

theorem enumValues_definition (proper : entry.ListsProperly) :
    (entry.definition name).enumValues = entry.enumValues.getD [] := by
  have listed : (entry.whole name).enumValues = entry.enumValues.getD [] := by
    unfold whole
    split
    next => rfl
    next other => exact (proper other).symm
  unfold definition
  cases entry.operators with
  | none => exact listed
  | some names => exact listed

theorem described_eq (proper : entry.ListsProperly) :
    entry.described name = entry.definition name := by
  rw [described, ← enumValues_definition proper]

theorem listsProperly_of_isSound (sound : (entry.described name).isSound = true) :
    entry.ListsProperly := by
  intro other
  simp only [FieldDefinition.isSound, Bool.and_eq_true] at sound
  have typed : ((entry.described name).fieldType == .enumeration) = false := by
    rw [described, fieldType_definition]
    exact beq_eq_false_iff_ne.mpr other
  have empty := sound.2
  rw [typed] at empty
  simpa [described] using empty

end FieldEntry

namespace Schema

variable {resource : String} {entries : List (String × FieldEntry)}

def fieldsOf (entries : List (String × FieldEntry)) : List (String × FieldDefinition) :=
  entries.map fun e => (e.1, e.2.definition e.1)

theorem names_fieldsOf (entries : List (String × FieldEntry)) :
    (fieldsOf entries).map Prod.fst = entries.map Prod.fst := by
  rw [fieldsOf, List.map_map]
  rfl

theorem names_described (entries : List (String × FieldEntry)) :
    (entries.map fun e => (e.1, e.2.described e.1)).map Prod.fst = entries.map Prod.fst := by
  rw [List.map_map]
  rfl

theorem ofDocument_eq (known : ∀ e ∈ entries, e.2.OperatorsKnown) :
    ofDocument ⟨resource, entries⟩ =
      build resource (entries.map fun e => (e.1, e.2.described e.1)) := by
  have defined : (entries.mapM fun e => (e.2.define e.1).map (e.1, ·)) =
      .ok (entries.map fun e => (e.1, e.2.described e.1)) := by
    apply Tree.mapM_of_forall_mem
    intro e member
    rw [FieldEntry.define_eq_ok (known e member)]
    rfl
  rw [ofDocument, defined]
  rfl

theorem mem_described_iff (proper : ∀ e ∈ SchemaDocument.latest entries, e.2.ListsProperly)
    (f : String × FieldDefinition) :
    f ∈ (SchemaDocument.sortEntries entries).map (fun e => (e.1, e.2.described e.1)) ↔
      f ∈ fieldsOf (SchemaDocument.latest entries) := by
  rw [fieldsOf, List.mem_map, List.mem_map]
  constructor
  · rintro ⟨e, member, rfl⟩
    have kept := SchemaDocument.mem_sortEntries.mp member
    exact ⟨e, kept, by rw [FieldEntry.described_eq (proper e kept)]⟩
  · rintro ⟨e, kept, rfl⟩
    exact ⟨e, SchemaDocument.mem_sortEntries.mpr kept,
      by rw [FieldEntry.described_eq (proper e kept)]⟩

/-- Entries that are sorted describe the schema that is built of the last ones of each name, if only
enumerations among these list values. -/
theorem build_sortEntries_eq_ok_iff {s : Schema} :
    build resource ((SchemaDocument.sortEntries entries).map fun e => (e.1, e.2.described e.1)) =
        .ok s ↔
      (∀ e ∈ SchemaDocument.latest entries, e.2.ListsProperly) ∧
        build resource (fieldsOf (SchemaDocument.latest entries)) = .ok s := by
  rw [build_eq_ok_iff, build_eq_ok_iff]
  constructor
  · rintro ⟨sound, _, resource, fields⟩
    have proper (e : String × FieldEntry) (kept : e ∈ SchemaDocument.latest entries) :
        e.2.ListsProperly := by
      have isSound : (e.2.described e.1).isSound = true := sound (e.1, e.2.described e.1)
        (List.mem_map.mpr ⟨e, SchemaDocument.mem_sortEntries.mpr kept, rfl⟩)
      exact FieldEntry.listsProperly_of_isSound isSound
    have same := mem_described_iff proper
    refine ⟨proper, fun f member => sound f ((same f).mpr member), ?_, resource,
      fun f => (fields f).trans (same f)⟩
    rw [names_fieldsOf]
    exact SchemaDocument.nodup_latest entries
  · rintro ⟨proper, sound, _, resource, fields⟩
    have same := mem_described_iff proper
    refine ⟨fun f member => sound f ((same f).mp member), ?_, resource,
      fun f => (fields f).trans (same f).symm⟩
    rw [names_described]
    exact SchemaDocument.nodup_sortEntries entries

theorem parse_eq_build {text : String} {w : Json} (transcribed : Json.transcribe text = .ok w)
    (spelled : SchemaDocument.IsDocument w resource entries)
    (known : ∀ e ∈ entries, e.2.OperatorsKnown) :
    parse text = build resource
      ((SchemaDocument.sortEntries entries).map fun e => (e.1, e.2.described e.1)) := by
  rw [parse, SchemaDocument.parse_of_isDocument transcribed spelled]
  apply ofDocument_eq
  intro e member
  exact known e (SchemaDocument.latest_subset entries (SchemaDocument.mem_sortEntries.mp member))

/-- A text that spells a schema document with known operators describes the schema that is built of the
last fields of each name, if only enumerations among these list values. Where all names are different
these are the fields in the order of the text; where one is repeated, no schema is built of them. -/
theorem parse_eq_ok_iff_build (text : String) (w : Json) (resource : String)
    (entries : List (String × FieldEntry)) (transcribed : Json.transcribe text = .ok w)
    (spelled : SchemaDocument.IsDocument w resource entries)
    (known : ∀ e ∈ entries, e.2.OperatorsKnown) :
    (∀ s, parse text = .ok s ↔
      (∀ e ∈ SchemaDocument.latest entries, e.2.ListsProperly) ∧
        build resource (fieldsOf (SchemaDocument.latest entries)) = .ok s) ∧
    ((entries.map Prod.fst).Nodup → SchemaDocument.latest entries = entries) ∧
    (¬(entries.map Prod.fst).Nodup → ∀ s, build resource (fieldsOf entries) ≠ .ok s) := by
  refine ⟨fun s => ?_, SchemaDocument.latest_of_nodup, ?_⟩
  · rw [parse_eq_build transcribed spelled known, build_sortEntries_eq_ok_iff]
  · intro repeated s built
    obtain ⟨_, distinct, _⟩ := build_eq_ok_iff.mp built
    exact repeated (names_fieldsOf entries ▸ distinct)

/-- A name that is written twice, an entry written as a list, a type written as an object, and an operator
that is repeated in another case. -/
theorem parse_eq_ok_iff_build_repeated :
    let text := "\x7b\"fields\":\x7b\"a\":\x7b\"type\":\"string\"\x7d," ++
      "\"b\":[\"t.b\",\"enum\",null,[\"x\"]]," ++
      "\"a\":\x7b\"operators\":[\"eq\",\"EQ\"],\"type\":\x7b\"number\":null\x7d\x7d\x7d," ++
      "\"resource\":\"r\"\x7d"
    let entries : List (String × FieldEntry) :=
      [("a", ⟨none, .string, none, none⟩), ("b", ⟨some "t.b", .enumeration, none, some ["x"]⟩),
        ("a", ⟨none, .number, some ["eq", "EQ"], none⟩)]
    ∃ w, Json.transcribe text = .ok w ∧ SchemaDocument.IsDocument w "r" entries ∧
      (∀ e ∈ entries, e.2.OperatorsKnown) ∧
      (∀ s, parse text = .ok s ↔
        build "r" [("b", .enumeration "t.b" ["x"]),
          ("a", (FieldDefinition.new "a" .number).withOperators [.eq])] = .ok s) ∧
      ∀ s, build "r" (fieldsOf entries) ≠ .ok s := by
  intro text entries
  let first := Json.object [("type", .string "string")]
  let second := Json.array [.string "t.b", .string "enum", .null, .array [.string "x"]]
  let third := Json.object [("operators", .array [.string "eq", .string "EQ"]),
    ("type", .object [("number", .null)])]
  let w := Json.object
    [("fields", .object [("a", first), ("b", second), ("a", third)]), ("resource", .string "r")]
  have transcribed : Json.transcribe text = .ok w := by decide +kernel
  have spelled : SchemaDocument.IsDocument w "r" entries := by
    have firstIs : FieldEntry.IsEntry first ⟨none, .string, none, none⟩ :=
      .members (.cons (.fieldType rfl ⟨"string", .inl rfl, by decide⟩) (.nil _)) rfl
    have secondIs : FieldEntry.IsEntry second ⟨some "t.b", .enumeration, none, some ["x"]⟩ :=
      .list (.all (.some rfl) ⟨"enum", .inl rfl, by decide⟩ .null
        (.some ⟨_, rfl, .cons rfl .nil⟩))
    have thirdIs : FieldEntry.IsEntry third ⟨none, .number, some ["eq", "EQ"], none⟩ :=
      .members (.cons (.operators rfl (.some ⟨_, rfl, .cons rfl (.cons rfl .nil)⟩))
        (.cons (.fieldType rfl ⟨"number", .inr rfl, by decide⟩) (.nil _))) rfl
    exact .fieldsFirst ⟨_, rfl, .cons ⟨rfl, firstIs⟩
      (.cons ⟨rfl, secondIs⟩ (.cons ⟨rfl, thirdIs⟩ .nil))⟩
  have known : ∀ e ∈ entries, e.2.OperatorsKnown := by
    simp only [entries, List.forall_mem_cons]
    refine ⟨nofun, nofun, ?_, nofun⟩
    rintro _ ⟨⟩
    decide +kernel
  obtain ⟨loaded, _, refused⟩ := parse_eq_ok_iff_build text w "r" entries transcribed spelled known
  have kept : SchemaDocument.latest entries =
      [("b", ⟨some "t.b", .enumeration, none, some ["x"]⟩),
        ("a", ⟨none, .number, some ["eq", "EQ"], none⟩)] := rfl
  have proper : ∀ e ∈ SchemaDocument.latest entries, e.2.ListsProperly := by
    simp only [kept, List.forall_mem_cons]
    exact ⟨absurd rfl, fun _ => rfl, nofun⟩
  have fields : fieldsOf (SchemaDocument.latest entries) = [("b", .enumeration "t.b" ["x"]),
      ("a", (FieldDefinition.new "a" .number).withOperators [.eq])] := by
    decide +kernel
  refine ⟨w, transcribed, spelled, known, fun s => (loaded s).trans ?_, refused (by decide)⟩
  rw [fields]
  exact and_iff_right proper

/-- Of a name that is written twice the second field makes a schema, though none is built of both. -/
theorem parse_repeated_not_built :
    let text := "\x7b\"resource\":\"r\",\"fields\":\x7b\"a\":\x7b\"type\":\"string\"\x7d," ++
      "\"a\":\x7b\"type\":\"number\"\x7d\x7d\x7d"
    let entries : List (String × FieldEntry) :=
      [("a", ⟨none, .string, none, none⟩), ("a", ⟨none, .number, none, none⟩)]
    ∃ w, Json.transcribe text = .ok w ∧ SchemaDocument.IsDocument w "r" entries ∧
      (∀ e ∈ entries, e.2.OperatorsKnown ∧ e.2.ListsProperly) ∧
      ¬((∃ s, parse text = .ok s) ↔ ∃ s, build "r" (fieldsOf entries) = .ok s) := by
  intro text entries
  let first := Json.object [("type", .string "string")]
  let second := Json.object [("type", .string "number")]
  let w := Json.object
    [("resource", .string "r"), ("fields", .object [("a", first), ("a", second)])]
  have transcribed : Json.transcribe text = .ok w := by decide +kernel
  have spelled : SchemaDocument.IsDocument w "r" entries := by
    have firstIs : FieldEntry.IsEntry first ⟨none, .string, none, none⟩ :=
      .members (.cons (.fieldType rfl ⟨"string", .inl rfl, by decide⟩) (.nil _)) rfl
    have secondIs : FieldEntry.IsEntry second ⟨none, .number, none, none⟩ :=
      .members (.cons (.fieldType rfl ⟨"number", .inl rfl, by decide⟩) (.nil _)) rfl
    exact .resourceFirst ⟨_, rfl, .cons ⟨rfl, firstIs⟩ (.cons ⟨rfl, secondIs⟩ .nil)⟩
  have sound : ∀ e ∈ entries, e.2.OperatorsKnown ∧ e.2.ListsProperly := by
    simp only [entries, List.forall_mem_cons]
    exact ⟨⟨nofun, fun _ => rfl⟩, ⟨nofun, fun _ => rfl⟩, nofun⟩
  have loaded : ∃ s, parse text = .ok s := by
    rw [parse_eq_build transcribed spelled fun e member => (sound e member).1]
    exact ⟨_, rfl⟩
  refine ⟨w, transcribed, spelled, sound, fun same => ?_⟩
  obtain ⟨s, built⟩ := same.mp loaded
  obtain ⟨_, distinct, _⟩ := build_eq_ok_iff.mp built
  exact absurd distinct (by decide)

end Schema
end Sieve
