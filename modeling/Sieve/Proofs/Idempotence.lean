import Sieve.Proofs.Time.Written
import Sieve.Proofs.Typing
import Sieve.Proofs.Uuid

/-! Typed filters that are typed again. The untyped form of a value of the type of a field is read as
the same value, so what typing makes of a tree stays the same when it is made untyped and typed
once more. -/
namespace Sieve

theorem TypedValue.itemsToRaw_eq_map (items : List TypedValue) :
    itemsToRaw items = items.map toRaw := by
  induction items with
  | nil => rfl
  | cons item rest ih => rw [itemsToRaw, List.map_cons, ih]

namespace Coercion

variable {d : FieldDefinition} {field : String}

theorem numberOfJson?_whole {i : Int} (bounded : fitsInt64 i = true) :
    numberOfJson? (.whole i) = some (.integer i) := by
  have whole : Json.Number.int64? (.whole i) = some i := if_pos bounded
  simp only [numberOfJson?, whole]

theorem uuid?_text (u : Uuid) : uuid? (.text u.text) = some (.uuid u) := by
  rw [uuid?, Uuid.parse?_text, Option.map_some]

theorem timestamp?_text (t : Time.Instant) : timestamp? (.text t.text) = some (.timestamp t) := by
  rw [timestamp?, Time.Instant.parse?_text, Option.map_some]

theorem member?_text {allowed : List String} {s : String} (declared : allowed.contains s = true) :
    member? allowed (.text s) = some (.text s) := by
  rw [member?, candidate?, Option.filter_some, if_pos declared, Option.map_some]

theorem scalar_toRaw {w : TypedValue} (admitted : d.admits w = true) :
    scalar d field w.toRaw = .ok w := by
  unfold FieldDefinition.admits at admitted
  unfold scalar
  split at admitted
  case h_8 => cases admitted
  -- In each case the untyped form is one that the type is read from.
  all_goals
    simp only [‹d.fieldType = _›, TypedValue.toRaw, RawValue.isList, Bool.false_eq_true, if_false]
  next s _ => rfl
  next i _ => exact expect_eq_ok_iff.mpr (numberOfJson?_whole admitted)
  next x _ => rfl
  next b _ => rfl
  next u _ => exact expect_eq_ok_iff.mpr (uuid?_text u)
  next t _ => exact expect_eq_ok_iff.mpr (timestamp?_text t)
  next s _ => exact expect_eq_ok_iff.mpr (member?_text admitted)

theorem mapM_scalar_toRaw {items : List TypedValue} (admitted : items.all d.admits = true) :
    (items.map TypedValue.toRaw).mapM (scalar d field) = .ok items := by
  have each (w : TypedValue) (member : w ∈ items) :
      scalar d field w.toRaw = .ok w := scalar_toRaw (List.all_eq_true.mp admitted w member)
  have all : items.mapM (fun w => scalar d field w.toRaw) = .ok (items.map id) :=
    Tree.mapM_of_forall_mem each
  rw [List.map_id] at all
  exact List.mapM_map.trans all

theorem value_toRaw {op : Operator} {w : Option TypedValue} (fits : d.fits op w = true) :
    value d op field (w.map TypedValue.toRaw) = .ok w := by
  unfold value
  rcases FieldDefinition.fits_cases fits with ⟨null, rfl⟩ |
    ⟨takesValue, takesList, items, rfl, admitted⟩ | ⟨takesValue, single, x, rfl, admitted⟩
  · rw [null]
    rfl
  · simp only [takesValue, takesList, Option.map_some, TypedValue.toRaw,
      TypedValue.itemsToRaw_eq_map]
    exact map_eq_ok.mpr ⟨items, mapM_scalar_toRaw admitted, rfl⟩
  · simp only [takesValue, single, Option.map_some]
    exact map_eq_ok.mpr ⟨x, scalar_toRaw admitted, rfl⟩

end Coercion

theorem FieldDefinition.form_of_fits {d : FieldDefinition} {op : Operator} {w : Option TypedValue}
    (fits : d.fits op w = true) :
    (op.takesList = true → ((w.map TypedValue.toRaw).map RawValue.isList).getD false = true) ∧
      (op.takesValue = true → (w.map TypedValue.toRaw).isSome = true) := by
  rcases fits_cases fits with ⟨null, rfl⟩ | ⟨_, _, items, rfl, _⟩ | ⟨_, single, x, rfl, _⟩
  · have single : op.takesList ≠ true := fun list => by
      rw [Operator.takesValue_of_takesList list] at null
      cases null
    simp [null, single]
  · simp [TypedValue.toRaw, RawValue.isList]
  · simp [single]

/-- A typed filter, made untyped, is accepted and becomes the same typed filter. -/
theorem Filter.TypedBy.coerce_toFilter {schema : Schema} {f : Filter} {d : FieldDefinition}
    {typed : TypedFilter} (typedBy : f.TypedBy schema d typed) :
    typed.toFilter.coerce schema = .ok typed := by
  have defined : schema.field? typed.field = some d := typedBy.field ▸ typedBy.defined
  have known : typed.toFilter.resolvedOperator = some typed.operator :=
    Operator.ofName?_name typed.operator
  have resolved : typed.toFilter.resolve schema = .ok (d, typed.operator) :=
    resolve_eq_ok_iff.mpr
      ⟨defined, known, typedBy.allowed, FieldDefinition.form_of_fits typedBy.fits⟩
  have value : Coercion.value d typed.operator typed.toFilter.field typed.toFilter.value =
      .ok typed.value := Coercion.value_toRaw typedBy.fits
  refine bind_eq_ok.mpr ⟨_, resolved, bind_eq_ok.mpr ⟨_, value, ?_⟩⟩
  rw [← typedBy.column]
  rfl

/-- What becomes of a tree stays the same when it is made untyped and given types again. -/
theorem coerce_idempotent (schema : Schema) (tree : Tree Filter) (typed : Tree TypedFilter)
    (mode again : ValidationMode) (coerced : tree.coerce schema mode = .ok typed) :
    (typed.map TypedFilter.toFilter).coerce schema again = .ok typed := by
  have leaves (t : TypedFilter) (member : t ∈ typed.leaves) : t.toFilter.coerce schema = .ok t := by
    obtain ⟨f, _, coerced⟩ :=
      (Tree.related_of_mapM (Tree.coerce_eq_ok_iff.mp coerced)).exists_leaf member
    obtain ⟨d, typedBy⟩ := Filter.typedBy_of_coerce coerced
    exact typedBy.coerce_toFilter
  rw [Tree.coerce_eq_ok_iff, Tree.mapM_map, Tree.mapM_of_forall (g := id) typed leaves, Tree.map_id]

/-- The least whole number and minus zero, a leap second of a year of five digits, an identifier in
capitals, a truth value in capitals and a value of an enumeration that is a number. -/
theorem coerce_idempotent_films :
    let fields : List (String × FieldDefinition) :=
      [("id", .new "f.id" .uuid), ("open", .new "f.open" .boolean),
        ("rating", .enumeration "f.rating" ["12"]), ("shown", .new "f.shown" .timestamp),
        ("year", .new "f.year" .number)]
    let years : Filter := ⟨"year", "NIN", some
      (.list [.text " -9223372036854775808 ", .number (.real (.zero true))])⟩
    let shown : Filter := ⟨"shown", "gt", some (.text " +12016-12-31T21:59:60.25-0200 ")⟩
    let code : Filter := ⟨"id", "eq", some (.text "6B29FC40-CA47-1067-B31D-00DD010662DA")⟩
    let isOpen : Filter := ⟨"open", "EQ", some (.text "TRUE")⟩
    let rating : Filter := ⟨"rating", "eq", some (.number (.whole 12))⟩
    let tree := Tree.group .and [years] [.group .or [shown, code] [.group .and [isOpen, rating] []]]
    let typedYears : TypedFilter := ⟨"year", "f.year", .notIn, some (.list
      [.integer (-9223372036854775808), .real (.finite (.zero true))])⟩
    let typedShown : TypedFilter := ⟨"shown", "f.shown", .gt, some
      (.timestamp ⟨317052748799, 1250000000, by decide, by decide⟩)⟩
    let typedCode : TypedFilter := ⟨"id", "f.id", .eq, some
      (.uuid ⟨142445396020610330655230727610167616218, by decide⟩)⟩
    let typedOpen : TypedFilter := ⟨"open", "f.open", .eq, some (.boolean true)⟩
    let typedRating : TypedFilter := ⟨"rating", "f.rating", .eq, some (.text "12")⟩
    let typed := Tree.group .and [typedYears]
      [.group .or [typedShown, typedCode] [.group .and [typedOpen, typedRating] []]]
    ∃ schema, Schema.build "films" fields = .ok schema ∧
      tree.coerce schema .failFast = .ok typed ∧
      (typed.map TypedFilter.toFilter).coerce schema .exhaustive = .ok typed := by
  intro fields years shown code isOpen rating tree typedYears typedShown typedCode typedOpen
    typedRating typed
  obtain ⟨schema, built, coerced⟩ : ∃ schema, Schema.build "films" fields = .ok schema ∧
      tree.coerce schema .failFast = .ok typed := by
    subst typed typedRating typedOpen typedCode typedShown typedYears tree rating isOpen code shown
      years fields
    exact ⟨_, rfl, rfl⟩
  exact ⟨schema, built, coerced, coerce_idempotent schema tree typed .failFast .exhaustive coerced⟩

end Sieve
