import Sieve.Proofs.Coercion
import Sieve.Proofs.Expression.Canonical
import Sieve.Proofs.Number.Written

/-! The expression of a filter means the same as the filter. Reading it turns every value into text,
and on each type of field the text of a value that is accepted is read as the same typed value. -/
namespace Sieve

namespace Coercion

def ReadsText {α : Type} (reader : RawValue → Option α) : Prop :=
  ∀ v w, reader v = some w → reader (.text v.display) = some w

theorem readsText_number : ReadsText number? := by
  intro v w read
  cases v with
  | number n => exact (numberOfText?_text n).trans read
  | text s => exact read
  | _ => cases read

theorem readsText_boolean : ReadsText boolean? := by
  intro v w read
  cases v with
  | bool b =>
    cases b with
    | true => exact read
    | false => exact read
  | text s => exact read
  | _ => cases read

theorem readsText_uuid : ReadsText uuid? := by
  intro v w read
  cases v with
  | text s => exact read
  | _ => cases read

theorem readsText_timestamp : ReadsText timestamp? := by
  intro v w read
  cases v with
  | text s => exact read
  | _ => cases read

theorem readsText_candidate : ReadsText candidate? := by
  intro v s found
  cases v with
  | text s => exact found
  | number n => exact found
  | _ => cases found

theorem readsText_member (allowed : List String) : ReadsText (member? allowed) := by
  intro v w found
  obtain ⟨s, among, rfl⟩ := Option.map_eq_some_iff.mp found
  obtain ⟨candidate, allows⟩ := Option.filter_eq_some_iff.mp among
  exact Option.map_eq_some_iff.mpr
    ⟨s, Option.filter_eq_some_iff.mpr ⟨readsText_candidate v s candidate, allows⟩, rfl⟩

variable {d : FieldDefinition} {field : String} {v : RawValue} {w : TypedValue}

theorem ReadsText.expect_eq_ok {reader : RawValue → Option TypedValue} {e e' : FilterError}
    (readsText : ReadsText reader) (read : expect e (reader v) = .ok w) :
    expect e' (reader (.text v.display)) = .ok w :=
  expect_eq_ok_iff.mpr (readsText v w (expect_eq_ok_iff.mp read))

theorem isList_of_scalar (read : scalar d field v = .ok w) : v.isList = false := by
  unfold scalar at read
  split at read
  next => cases read
  next single => exact Bool.eq_false_iff.mpr single

/-- The text of a single value that is accepted is read as the same typed value. -/
theorem scalar_display (read : scalar d field v = .ok w) :
    scalar d field (.text v.display) = .ok w := by
  have single := isList_of_scalar read
  have text : (RawValue.text v.display).isList = false := rfl
  unfold scalar at read ⊢
  rw [single, if_neg Bool.false_ne_true] at read
  rw [text, if_neg Bool.false_ne_true]
  cases typed : d.fieldType <;> rw [typed] at read
  case string => exact read
  case number => exact readsText_number.expect_eq_ok read
  case boolean => exact readsText_boolean.expect_eq_ok read
  case uuid => exact readsText_uuid.expect_eq_ok read
  case timestamp => exact readsText_timestamp.expect_eq_ok read
  case enumeration => exact (readsText_member d.enumValues).expect_eq_ok read

theorem mapM_scalar_display {items : List RawValue} {values : List TypedValue}
    (read : items.mapM (scalar d field) = .ok values) :
    (items.map fun item => RawValue.text item.display).mapM (scalar d field) = .ok values := by
  have each : List.Forall₂ (fun item w => scalar d field (.text item.display) = .ok w) items values :=
    (Tree.forall₂_of_mapM read).imp fun _ _ => scalar_display
  exact List.mapM_map.trans (Tree.mapM_of_forall₂ each)

end Coercion

namespace Expression

variable {f : Filter} {op : Operator}

theorem isLower_of_mem_name (op : Operator) :
    ∀ c ∈ op.name.toList.map Char.toLower, c.isLower = true := by
  have letters : (op.name.toList.map Char.toLower).all Char.isLower = true := by
    cases op <;> decide +kernel
  exact List.all_eq_true.mp letters

theorem name_ne_empty (op : Operator) : op.name ≠ "" := by
  cases op <;> decide

theorem visible_of_isLower_toLower {c : Char} (letter : c.toLower.isLower = true) :
    c ≠ ':' ∧ Text.isBlank c = false := by
  have bounds : 65 ≤ c.toNat ∧ c.toNat ≤ 122 := by
    unfold Char.toLower at letter
    split at letter
    next upper =>
      have least : 65 ≤ c.toNat := UInt32.le_iff_toNat_le.mp upper.1
      have most : c.toNat ≤ 90 := UInt32.le_iff_toNat_le.mp upper.2
      omega
    next =>
      have between := (Bool.and_eq_true _ _).mp letter
      have least : 97 ≤ c.toNat := UInt32.le_iff_toNat_le.mp (of_decide_eq_true between.1)
      have most : c.toNat ≤ 122 := UInt32.le_iff_toNat_le.mp (of_decide_eq_true between.2)
      omega
  refine ⟨?_, Text.isBlank_of_printing (by omega) (by omega)⟩
  rintro rfl
  exact absurd bounds.1 (by decide)

theorem isPart_of_ofName? {name : String} (found : Operator.ofName? name = some op) :
    IsPart ':' name := by
  have same : op.name.toList.map Char.toLower = name.toList.map Char.toLower :=
    beq_iff_eq.mp (Operator.ofName?_eq_some_iff.mp found)
  have letters (c : Char) (member : c ∈ name.toList) : c ≠ ':' ∧ Text.isBlank c = false := by
    apply visible_of_isLower_toLower
    exact isLower_of_mem_name op _ (same ▸ List.mem_map_of_mem member)
  refine ⟨?_, fun colon => (letters ':' colon).1 rfl, ?_, ?_⟩
  · rintro rfl
    exact name_ne_empty op (String.toList_eq_nil_iff.mp (List.map_eq_nil_iff.mp same))
  · exact fun c first => (letters c (List.mem_of_mem_head? first)).2
  · exact fun c last => (letters c (List.mem_of_getLast? last)).2

theorem namesList_iff_takesList (named : f.resolvedOperator = some op) :
    NamesList f.operator ↔ op.takesList = true := by
  have found : Operator.ofName? f.operator = some op := named
  rw [namesList_iff, found]
  rfl

/-- A filter whose value can be told from its text: the field keeps its place between the colons, a
single value has a text, and so has every item of a list, which is not empty and keeps its place
between the commas. -/
structure Legible (f : Filter) : Prop where
  field : IsPart ':' f.field
  single : ∀ v, f.value = some v → v.isList = false → v.display ≠ ""
  list : NamesList f.operator → ∀ items, f.value = some (.list items) →
    items ≠ [] ∧ ∀ item ∈ items, IsPart ',' item.display

theorem displayItems_texts (items : List RawValue) :
    RawValue.displayItems (items.map fun item => .text item.display) =
      RawValue.displayItems items := by
  induction items with
  | nil => rfl
  | cons item rest ih =>
    cases rest with
    | nil => rfl
    | cons next rest =>
      have shorter : RawValue.displayItems (.text next.display :: rest.map fun item =>
          .text item.display) = RawValue.displayItems (next :: rest) := ih
      rw [List.map_cons, List.map_cons, RawValue.displayItems, RawValue.displayItems, shorter]
      rfl

/-- What the expression of a filter holds is typed as the value of the filter is. -/
theorem exists_holds {d : FieldDefinition} {value : Option TypedValue} (legible : Legible f)
    (named : f.resolvedOperator = some op)
    (typed : Coercion.value d op f.field f.value = .ok value) :
    ∃ text, Holds f.operator text ∧ shown text = shown f.value ∧
      (op.takesList = true → (text.map RawValue.isList).getD false = true) ∧
      (op.takesValue = true → text.isSome = true) ∧
      Coercion.value d op f.field text = .ok value := by
  have namesList := namesList_iff_takesList named
  have single (takesOne : op.takesList = false) : ¬NamesList f.operator := by
    rw [namesList, takesOne]
    exact Bool.false_ne_true
  rcases Coercion.value_eq_ok_iff.mp typed with ⟨takesNone, rfl⟩ |
    ⟨takesValue, takesList, items, values, same, each, rfl⟩ |
    ⟨takesValue, takesOne, x, y, same, read, rfl⟩
  · -- A null check takes whatever text there is.
    have takesOne : op.takesList = false := by
      cases op <;> first | rfl | cases takesNone
    have noValue (v : Option RawValue) : Coercion.value d op f.field v = .ok none :=
      Coercion.value_eq_ok_iff.mpr (.inl ⟨takesNone, rfl⟩)
    by_cases empty : shown f.value = []
    · exact ⟨none, .absent, empty.symm, by simp [takesOne], by simp [takesNone], noValue none⟩
    · refine ⟨some (.text (String.ofList (shown f.value))),
        .text (single takesOne) (mt String.ofList_eq_empty_iff.mp empty), ?_, by simp [takesOne],
        by simp, noValue _⟩
      simp [shown, RawValue.display]
  · obtain ⟨nonempty, parts⟩ := legible.list (namesList.mpr takesList) items same
    have texts : (items.map RawValue.display).map RawValue.text =
        items.map fun item => .text item.display := List.map_map
    refine ⟨some (.list ((items.map RawValue.display).map .text)),
      .list (namesList.mpr takesList) (by simpa using nonempty) (by simpa using parts), ?_,
      by simp [RawValue.isList], by simp, ?_⟩
    · rw [same, texts, shown, shown, Option.map_some, Option.map_some, RawValue.display,
        RawValue.display, displayItems_texts]
    · rw [texts]
      exact Coercion.value_eq_ok_iff.mpr (.inr (.inl
        ⟨takesValue, takesList, _, values, rfl, Coercion.mapM_scalar_display each, rfl⟩))
  · have nonempty := legible.single x same (Coercion.isList_of_scalar read)
    refine ⟨some (.text x.display), .text (single takesOne) nonempty, ?_, by simp [takesOne],
      by simp, ?_⟩
    · rw [same]
      rfl
    · exact Coercion.value_eq_ok_iff.mpr (.inr (.inr
        ⟨takesValue, takesOne, _, y, rfl, Coercion.scalar_display read, rfl⟩))

/-- The expression of a filter that is typed is read as a filter that becomes the same typed filter,
whatever the limits are that admit its length. -/
theorem coerce_parse_expression (schema : Schema) (f : Filter) (typed : TypedFilter)
    (limits : Limits) (legible : Legible f)
    (within : f.expression.utf8ByteSize ≤ limits.maxInputBytes)
    (coerced : f.coerce schema = .ok typed) :
    ∃ g, parse limits f.expression = .ok g ∧ g.coerce schema = .ok typed := by
  obtain ⟨⟨d, op⟩, resolved, coerced⟩ := bind_eq_ok.mp coerced
  obtain ⟨value, given, coerced⟩ := bind_eq_ok.mp coerced
  obtain ⟨defined, named, allowed, _⟩ := Filter.resolve_eq_ok_iff.mp resolved
  obtain ⟨text, holds, same, listed, present, read⟩ := exists_holds legible named given
  have canonical : Canonical ⟨f.field, f.operator, text⟩ :=
    ⟨legible.field, isPart_of_ofName? named, holds⟩
  have expression : Filter.expression ⟨f.field, f.operator, text⟩ = f.expression := by
    rw [← String.toList_inj, toList_expression, toList_expression, same]
  refine ⟨⟨f.field, f.operator, text⟩, ?_, ?_⟩
  · rw [← expression]
    exact parse_eq_ok_iff.mpr ⟨expression ▸ within, canonical.parseUnlimited_expression⟩
  · have textResolved : Filter.resolve schema ⟨f.field, f.operator, text⟩ = .ok (d, op) :=
      Filter.resolve_eq_ok_iff.mpr ⟨defined, named, allowed, listed, present⟩
    exact bind_eq_ok.mpr ⟨_, textResolved, bind_eq_ok.mpr ⟨_, read, coerced⟩⟩

/-- A list of numbers that are read as whole or as binary64 numbers by their texts alone, a truth
value on a field of text, and a null check with a value. -/
theorem coerce_parse_expression_films :
    let fields : List (String × FieldDefinition) :=
      [("title", (FieldDefinition.new "f.title" .string).withOperators [.eq, .isNull]),
        ("year", .new "f.year" .number)]
    let five : Binary64 := ⟨false, 4617315517961601024, by decide⟩
    let tenToSixteen : Binary64 := ⟨false, 4846369599423283200, by decide⟩
    let twoToSixtyFour : Binary64 := ⟨false, 4895412794951729152, by decide⟩
    let years : Filter := ⟨"year", "NIN", some (.list
      [.number (.real five), .number (.real tenToSixteen), .number (.whole 18446744073709551615),
        .number (.real (.zero true)), .text "5"])⟩
    let typedYears : TypedFilter := ⟨"year", "f.year", .notIn, some (.list
      [.real (.finite five), .real (.finite tenToSixteen), .real (.finite twoToSixtyFour),
        .real (.finite (.zero true)), .integer 5])⟩
    let title : Filter := ⟨"title", "Eq", some (.bool true)⟩
    let typedTitle : TypedFilter := ⟨"title", "f.title", .eq, some (.text "true")⟩
    let untitled : Filter := ⟨"title", "isnull", some (.list [])⟩
    let typedUntitled : TypedFilter := ⟨"title", "f.title", .isNull, none⟩
    ∃ schema, Schema.build "films" fields = .ok schema ∧
      (years.coerce schema = .ok typedYears ∧
        ∃ g, parse .standard years.expression = .ok g ∧ g.coerce schema = .ok typedYears) ∧
      (title.coerce schema = .ok typedTitle ∧
        ∃ g, parse .standard title.expression = .ok g ∧ g.coerce schema = .ok typedTitle) ∧
      (untitled.coerce schema = .ok typedUntitled ∧
        ∃ g, parse .standard untitled.expression = .ok g ∧ g.coerce schema = .ok typedUntitled) := by
  intro fields five tenToSixteen twoToSixtyFour years typedYears title typedTitle untitled
    typedUntitled
  obtain ⟨schema, built, defined, coercedTitle, coercedUntitled⟩ :
      ∃ schema, Schema.build "films" fields = .ok schema ∧
        schema.field? "year" = some (.new "f.year" .number) ∧
        title.coerce schema = .ok typedTitle ∧ untitled.coerce schema = .ok typedUntitled := by
    subst typedUntitled untitled typedTitle title fields
    exact ⟨_, rfl, rfl, rfl, rfl⟩
  have rounded : Coercion.numberOfJson? (.whole 18446744073709551615) =
      some (.real (.finite twoToSixtyFour)) := by
    have nearest : (Json.Number.whole 18446744073709551615).toReal.finite? = some twoToSixtyFour := by
      subst twoToSixtyFour
      decide +kernel
    have large : (Json.Number.whole 18446744073709551615).int64? = none := rfl
    rw [Coercion.numberOfJson?, large, nearest]
    rfl
  have third : Coercion.scalar (.new "f.year" .number) "year"
      (.number (.whole 18446744073709551615)) = .ok (.real (.finite twoToSixtyFour)) := by
    unfold Coercion.scalar
    simp only [RawValue.isList, Bool.false_eq_true, if_false, FieldDefinition.new, Coercion.number?]
    exact Coercion.expect_eq_ok_iff.mpr rounded
  have coercedYears : years.coerce schema = .ok typedYears := by
    have named : Operator.ofName? "NIN" = some .notIn := by decide +kernel
    have resolved : years.resolve schema = .ok (.new "f.year" .number, .notIn) :=
      Filter.resolve_eq_ok_iff.mpr ⟨defined, named, by decide, fun _ => rfl, fun _ => rfl⟩
    refine bind_eq_ok.mpr ⟨_, resolved, bind_eq_ok.mpr ⟨_, Coercion.value_eq_ok_iff.mpr
      (.inr (.inl ⟨rfl, rfl, _, _, rfl, Tree.mapM_of_forall₂ ?_, rfl⟩)), rfl⟩⟩
    exact .cons rfl (.cons rfl (.cons third (.cons rfl (.cons rfl .nil))))
  have legibleYears : Legible years := by
    refine ⟨by decide +kernel, ?_, ?_⟩
    · rintro _ ⟨⟩ ⟨⟩
    · rintro _ _ ⟨⟩
      exact ⟨by simp, by decide +kernel⟩
  have legibleTitle : Legible title := by
    refine ⟨by decide +kernel, ?_, ?_⟩
    · rintro _ ⟨⟩ _
      decide
    · rintro _ _ ⟨⟩
  have legibleUntitled : Legible untitled := by
    have single : ¬NamesList untitled.operator := by
      rw [namesList_iff]
      decide +kernel
    refine ⟨by decide +kernel, ?_, fun list => absurd list single⟩
    rintro _ ⟨⟩ ⟨⟩
  exact ⟨schema, built,
    ⟨coercedYears, coerce_parse_expression schema years typedYears .standard legibleYears
      (by decide +kernel) coercedYears⟩,
    ⟨coercedTitle, coerce_parse_expression schema title typedTitle .standard legibleTitle
      (by decide +kernel) coercedTitle⟩,
    coercedUntitled, coerce_parse_expression schema untitled typedUntitled .standard
      legibleUntitled (by decide +kernel) coercedUntitled⟩

end Expression
end Sieve
