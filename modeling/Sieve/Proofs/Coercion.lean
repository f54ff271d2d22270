import Sieve.Coercion
import Sieve.Proofs.Tree.Walk

/-! What typing makes of a filter: the field is known and allows the operator, and the value is what
the operator takes, of the type of the field. -/
namespace Sieve

namespace FieldDefinition

def admits (d : FieldDefinition) (v : TypedValue) : Bool :=
  match d.fieldType, v with
  | .string, .text _ => true
  | .number, .integer i => fitsInt64 i
  | .number, .real (.finite _) => true
  | .boolean, .boolean _ => true
  | .uuid, .uuid _ => true
  | .timestamp, .timestamp _ => true
  | .enumeration, .text s => d.enumValues.contains s
  | _, _ => false

/-- Whether a value is what an operator takes on the field: nothing for a null check, a list of
single values for a membership test, and a single value for every other operator. -/
def fits (d : FieldDefinition) (op : Operator) (v : Option TypedValue) : Bool :=
  if op.isNullCheck then v.isNone
  else match v with
    | none => false
    | some v =>
      if op.takesList then
        match v with
        | .list items => items.all d.admits
        | _ => false
      else d.admits v

theorem fits_cases {d : FieldDefinition} {op : Operator} {v : Option TypedValue}
    (fits : d.fits op v = true) :
    (op.takesValue = false ∧ v = none) ∨
      (op.takesValue = true ∧ op.takesList = true ∧
        ∃ items, v = some (.list items) ∧ items.all d.admits = true) ∨
      (op.takesValue = true ∧ op.takesList = false ∧ ∃ x, v = some x ∧ d.admits x = true) := by
  unfold FieldDefinition.fits at fits
  cases null : op.isNullCheck with
  | true =>
    rw [null, if_pos rfl] at fits
    refine .inl ⟨?_, Option.isNone_iff_eq_none.mp fits⟩
    rw [Operator.takesValue, null, Bool.not_true]
  | false =>
    have takesValue : op.takesValue = true := by rw [Operator.takesValue, null, Bool.not_false]
    rw [null, if_neg Bool.false_ne_true] at fits
    cases v with
    | none => cases fits
    | some x =>
      cases takesList : op.takesList with
      | true =>
        simp only [takesList, if_true] at fits
        cases x with
        | list items => exact .inr (.inl ⟨takesValue, rfl, items, rfl, fits⟩)
        | _ => cases fits
      | false =>
        simp only [takesList, Bool.false_eq_true, if_false] at fits
        exact .inr (.inr ⟨takesValue, rfl, x, rfl, fits⟩)

end FieldDefinition

structure Filter.TypedBy (schema : Schema) (f : Filter) (d : FieldDefinition)
    (typed : TypedFilter) : Prop where
  defined : schema.field? f.field = some d
  field : typed.field = f.field
  column : typed.column = d.column
  operator : f.resolvedOperator = some typed.operator
  allowed : typed.operator ∈ d.operators
  fits : d.fits typed.operator typed.value = true

/-- A filter is well formed if its field is known, the field allows its operator, and there is a
value of the form that the operator takes. -/
theorem Filter.resolve_eq_ok_iff {schema : Schema} {f : Filter} {d : FieldDefinition}
    {op : Operator} :
    f.resolve schema = .ok (d, op) ↔
      schema.field? f.field = some d ∧ f.resolvedOperator = some op ∧ op ∈ d.operators ∧
        (op.takesList = true → (f.value.map RawValue.isList).getD false = true) ∧
        (op.takesValue = true → f.value.isSome = true) := by
  unfold resolve
  cases schema.field? f.field with
  | none => simp
  | some definition =>
    have allowed (other : Operator) : f.resolvedOperator.filter definition.allows = some other ↔
        f.resolvedOperator = some other ∧ other ∈ definition.operators := by
      rw [Option.filter_eq_some_iff, FieldDefinition.allows, List.contains_iff_mem]
    cases known : f.resolvedOperator.filter definition.allows with
    | none =>
      have refused : ¬(f.resolvedOperator = some op ∧ op ∈ definition.operators) := by
        rw [← allowed, known]
        exact Option.some_ne_none op ∘ Eq.symm
      simp only [known, reduceCtorEq, false_iff]
      rintro ⟨⟨⟩, named, inOperators, _⟩
      exact refused ⟨named, inOperators⟩
    | some other =>
      -- The operator is the one that is named, which leaves the two checks of the value.
      obtain ⟨named, inOperators⟩ := (allowed other).mp known
      grind [Option.isSome_iff_ne_none, Option.isNone_iff_eq_none]

namespace Coercion

theorem expect_eq_ok_iff {e : FilterError} {v : Option TypedValue} {w : TypedValue} :
    expect e v = .ok w ↔ v = some w := by
  cases v <;> simp [expect]

theorem fitsInt64_of_int64? {n : Json.Number} {i : Int} (whole : n.int64? = some i) :
    fitsInt64 i = true := by
  cases n with
  | whole j =>
    simp only [Json.Number.int64?, Option.ite_none_right_eq_some, Option.some.injEq] at whole
    exact whole.2 ▸ whole.1
  | real x => cases whole

theorem fitsInt64_of_readInt64? {s : List Char} {i : Int} (read : readInt64? s = some i) :
    fitsInt64 i = true :=
  (Option.filter_eq_some_iff.mp read).2

variable {d : FieldDefinition} {field : String} {v : RawValue} {w : TypedValue}

theorem admits_of_whole_or_real (typed : d.fieldType = .number) {whole : Option Int}
    {real : Option Binary64} (read : (match whole with
      | some i => some (.integer i)
      | none => real.map fun x => TypedValue.real (.finite x)) = some w)
    (bounded : ∀ i, whole = some i → fitsInt64 i = true) : d.admits w = true := by
  cases whole with
  | some i =>
    cases read
    simp only [FieldDefinition.admits, typed]
    exact bounded i rfl
  | none =>
    obtain ⟨x, _, rfl⟩ := Option.map_eq_some_iff.mp read
    simp only [FieldDefinition.admits, typed]

theorem admits_of_number? (typed : d.fieldType = .number) (read : number? v = some w) :
    d.admits w = true := by
  cases v with
  | number n => exact admits_of_whole_or_real typed read fun _ => fitsInt64_of_int64?
  | text s => exact admits_of_whole_or_real typed read fun _ => fitsInt64_of_readInt64?
  | bool b => cases read
  | list items => cases read

theorem admits_of_boolean? (typed : d.fieldType = .boolean) (read : boolean? v = some w) :
    d.admits w = true := by
  unfold boolean? at read
  split at read
  · cases read
    simp only [FieldDefinition.admits, typed]
  · split at read
    · cases read
      simp only [FieldDefinition.admits, typed]
    · split at read
      · cases read
        simp only [FieldDefinition.admits, typed]
      · cases read
  · cases read

theorem admits_of_uuid? (typed : d.fieldType = .uuid) (read : uuid? v = some w) :
    d.admits w = true := by
  unfold uuid? at read
  split at read
  · obtain ⟨u, _, rfl⟩ := Option.map_eq_some_iff.mp read
    simp only [FieldDefinition.admits, typed]
  · cases read

theorem admits_of_timestamp? (typed : d.fieldType = .timestamp) (read : timestamp? v = some w) :
    d.admits w = true := by
  unfold timestamp? at read
  split at read
  · obtain ⟨t, _, rfl⟩ := Option.map_eq_some_iff.mp read
    simp only [FieldDefinition.admits, typed]
  · cases read

theorem admits_of_member? (typed : d.fieldType = .enumeration)
    (read : member? d.enumValues v = some w) : d.admits w = true := by
  obtain ⟨s, found, rfl⟩ := Option.map_eq_some_iff.mp read
  simp only [FieldDefinition.admits, typed]
  exact (Option.filter_eq_some_iff.mp found).2

theorem admits_of_scalar (read : scalar d field v = .ok w) : d.admits w = true := by
  unfold scalar at read
  split at read
  · cases read
  · cases typed : d.fieldType <;> rw [typed] at read
    case string =>
      cases read
      simp only [FieldDefinition.admits, typed]
    case number => exact admits_of_number? typed (expect_eq_ok_iff.mp read)
    case boolean => exact admits_of_boolean? typed (expect_eq_ok_iff.mp read)
    case uuid => exact admits_of_uuid? typed (expect_eq_ok_iff.mp read)
    case timestamp => exact admits_of_timestamp? typed (expect_eq_ok_iff.mp read)
    case enumeration => exact admits_of_member? typed (expect_eq_ok_iff.mp read)

theorem admits_of_mapM_scalar {items : List RawValue} {values : List TypedValue}
    (read : items.mapM (scalar d field) = .ok values) : ∀ w ∈ values, d.admits w = true := by
  intro w member
  obtain ⟨item, _, one⟩ := Tree.exists_of_mapM read member
  exact admits_of_scalar one

theorem value_eq_ok_iff {op : Operator} {v : Option RawValue} {w : Option TypedValue} :
    value d op field v = .ok w ↔
      (op.takesValue = false ∧ w = none) ∨
        (op.takesValue = true ∧ op.takesList = true ∧ ∃ items values, v = some (.list items) ∧
          items.mapM (scalar d field) = .ok values ∧ w = some (.list values)) ∨
        (op.takesValue = true ∧ op.takesList = false ∧ ∃ x y, v = some x ∧
          scalar d field x = .ok y ∧ w = some y) := by
  unfold value
  cases takesValue : op.takesValue with
  | false =>
    rw [if_pos (by simp), Except.ok.injEq]
    simp only [true_and, Bool.false_eq_true, false_and, or_false]
    exact eq_comm
  | true =>
    rw [if_neg (by simp)]
    cases v with
    | none => simp
    | some v =>
      cases takesList : op.takesList with
      | true =>
        cases v with
        | list items => simp [map_eq_ok, eq_comm (b := w)]
        | _ => simp
      | false => simp [map_eq_ok, eq_comm (b := w)]

theorem fits_of_value {op : Operator} {v : Option RawValue} {w : Option TypedValue}
    (read : value d op field v = .ok w) : d.fits op w = true := by
  rcases value_eq_ok_iff.mp read with ⟨takesNone, rfl⟩ |
    ⟨takesValue, takesList, items, values, rfl, each, rfl⟩ | ⟨takesValue, single, x, y, rfl, one, rfl⟩
  · have null : op.isNullCheck = true := by simpa [Operator.takesValue] using takesNone
    simp [FieldDefinition.fits, null]
  · have null : op.isNullCheck = false := by simpa [Operator.takesValue] using takesValue
    have all : values.all d.admits = true := List.all_eq_true.mpr (admits_of_mapM_scalar each)
    simp only [FieldDefinition.fits, null, takesList, Bool.false_eq_true, if_false, if_true]
    exact all
  · have null : op.isNullCheck = false := by simpa [Operator.takesValue] using takesValue
    simp only [FieldDefinition.fits, null, single, Bool.false_eq_true, if_false]
    exact admits_of_scalar one

end Coercion

section
variable {schema : Schema} {d : FieldDefinition} {op : Operator} {field operator : String}

theorem Filter.coerce_of_scalar {raw : RawValue} {v : TypedValue}
    (defined : schema.field? field = some d) (named : Operator.ofName? operator = some op)
    (allowed : op ∈ d.operators) (takes : op.takesValue = true ∧ op.takesList = false)
    (read : Coercion.scalar d field raw = .ok v) :
    Filter.coerce schema ⟨field, operator, some raw⟩ = .ok ⟨field, d.column, op, some v⟩ := by
  have resolved : Filter.resolve schema ⟨field, operator, some raw⟩ = .ok (d, op) :=
    resolve_eq_ok_iff.mpr ⟨defined, named, allowed, by simp [takes.2], fun _ => rfl⟩
  have value : Coercion.value d op field (some raw) = .ok (some v) :=
    Coercion.value_eq_ok_iff.mpr (.inr (.inr ⟨takes.1, takes.2, raw, v, rfl, read, rfl⟩))
  exact bind_eq_ok.mpr ⟨_, resolved, bind_eq_ok.mpr ⟨_, value, rfl⟩⟩

theorem Filter.coerce_of_list {items : List RawValue} {values : List TypedValue}
    (defined : schema.field? field = some d) (named : Operator.ofName? operator = some op)
    (allowed : op ∈ d.operators) (takes : op.takesValue = true ∧ op.takesList = true)
    (read : items.mapM (Coercion.scalar d field) = .ok values) :
    Filter.coerce schema ⟨field, operator, some (.list items)⟩ =
      .ok ⟨field, d.column, op, some (.list values)⟩ := by
  have resolved : Filter.resolve schema ⟨field, operator, some (.list items)⟩ = .ok (d, op) :=
    resolve_eq_ok_iff.mpr ⟨defined, named, allowed, fun _ => rfl, fun _ => rfl⟩
  have value : Coercion.value d op field (some (.list items)) = .ok (some (.list values)) :=
    Coercion.value_eq_ok_iff.mpr
      (.inr (.inl ⟨takes.1, takes.2, items, values, rfl, read, rfl⟩))
  exact bind_eq_ok.mpr ⟨_, resolved, bind_eq_ok.mpr ⟨_, value, rfl⟩⟩

end

theorem Filter.typedBy_of_coerce {schema : Schema} {f : Filter} {typed : TypedFilter}
    (coerced : f.coerce schema = .ok typed) : ∃ d, f.TypedBy schema d typed := by
  obtain ⟨⟨d, op⟩, resolved, coerced⟩ := bind_eq_ok.mp coerced
  obtain ⟨v, given, coerced⟩ := bind_eq_ok.mp coerced
  cases coerced
  obtain ⟨found, known, allowed, _⟩ := resolve_eq_ok_iff.mp resolved
  exact ⟨d, found, rfl, rfl, known, allowed, Coercion.fits_of_value given⟩

end Sieve
