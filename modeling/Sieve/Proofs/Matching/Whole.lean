import Sieve.Proofs.Matching.Comparison
import Sieve.Proofs.Number.Order
import Sieve.Proofs.Number.Written

/-! Comparisons of whole numbers. They are exact where both numbers have 64 binary digits in two's
complement. Elsewhere both are rounded, so that different numbers can be taken for equal. -/
namespace Sieve

def IsJsonInteger (i : Int) : Prop :=
  -9223372036854775808 ≤ i ∧ i < 18446744073709551616

def Operator.relates : Operator → Int → Int → Bool
  | .eq, a, b => decide (a = b)
  | .neq, a, b => decide (a ≠ b)
  | .gt, a, b => decide (a > b)
  | .gte, a, b => decide (a ≥ b)
  | .lt, a, b => decide (a < b)
  | .lte, a, b => decide (a ≤ b)
  | _, _, _ => false

theorem Operator.admits_compare {op : Operator} (compares : op ∈ comparisons) (a b : Int) :
    op.admits (compare a b) = op.relates a b := by
  simp only [comparisons, List.mem_cons, List.not_mem_nil, or_false] at compares
  rw [Bool.eq_iff_iff]
  rcases compares with rfl | rfl | rfl | rfl | rfl | rfl <;>
    simp only [admits, relates, beq_iff_eq, bne_iff_ne, decide_eq_true_eq, ne_eq, compare_eq_iff_eq,
      compare_gt_iff_gt, compare_lt_iff_lt, Int.not_lt, ge_iff_le]

inductive GivesWhole : RawValue → Int → Prop
  | number (i : Int) : GivesWhole (.number (.whole i)) i
  | text (i : Int) : GivesWhole (.text (String.ofList (decimalOfInt i))) i

namespace Coercion

variable {raw : RawValue} {i : Int} {d : FieldDefinition} {field : String}

theorem number?_of_givesWhole (gives : GivesWhole raw i) :
    number? raw = numberOfJson? (.whole i) := by
  cases gives with
  | number => rfl
  | text => exact numberOfText?_text (.whole i)

theorem isList_of_givesWhole (gives : GivesWhole raw i) : raw.isList = false := by
  cases gives <;> rfl

theorem scalar_of_givesWhole (numeric : d.fieldType = .number) (gives : GivesWhole raw i)
    {v : TypedValue} (read : numberOfJson? (.whole i) = some v) : scalar d field raw = .ok v := by
  unfold scalar
  simp only [isList_of_givesWhole gives, Bool.false_eq_true, if_false, numeric]
  rw [number?_of_givesWhole gives, read]
  rfl

end Coercion

namespace Matching

/-- Whether comparison tells two whole numbers apart, if they are different: both have 64 binary digits
in two's complement, or they are not rounded to one binary64 number. -/
def Discerned (a b : Int) : Prop :=
  a = b ∨ (fitsInt64 a = true ∧ fitsInt64 b = true) ∨ Binary64.ofInt? a ≠ Binary64.ofInt? b

instance (a b : Int) : Decidable (Discerned a b) :=
  inferInstanceAs (Decidable (_ ∨ _ ∨ _))

section
variable {a b : Int} {v : TypedValue}

theorem exists_toReal (inRange : IsJsonInteger a) :
    ∃ x, Binary64.ofInt? a = some x ∧ (Json.Number.whole a).toReal = .finite x := by
  obtain ⟨least, most⟩ := inRange
  obtain ⟨x, rounded⟩ := @Binary64.exists_ofInt? a (by omega)
  exact ⟨x, rounded, by rw [Json.Number.toReal, rounded, Real64.ofOption]⟩

theorem order?_toReal (rangeA : IsJsonInteger a) (rangeB : IsJsonInteger b)
    (rounded : ¬(fitsInt64 a = true ∧ fitsInt64 b = true)) :
    (Json.Number.whole a).toReal.order? (Json.Number.whole b).toReal =
      some (if Discerned a b then compare a b else .eq) := by
  obtain ⟨x, roundedA, realA⟩ := exists_toReal rangeA
  obtain ⟨y, roundedB, realB⟩ := exists_toReal rangeB
  rw [realA, realB, Real64.order?, Option.some_inj]
  by_cases same : x = y
  · subst same
    rw [Binary64.order_self]
    split
    next discerned =>
      rcases discerned with rfl | fit | apart
      · exact (compare_eq_iff_eq.mpr rfl).symm
      · exact absurd fit rounded
      · exact absurd (roundedA.trans roundedB.symm) apart
    next => rfl
  · have apart : Binary64.ofInt? a ≠ Binary64.ofInt? b := by
      rw [roundedA, roundedB]
      exact fun both => same (Option.some.inj both)
    rw [if_pos (.inr (.inr apart)), Binary64.order_ofInt? roundedA roundedB same]

/-- The order of a whole number in a record to the value made of another one. -/
theorem order?_whole (rangeA : IsJsonInteger a) (rangeB : IsJsonInteger b)
    (read : Coercion.numberOfJson? (.whole b) = some v) :
    order? (.number (.whole a)) v = some (if Discerned a b then compare a b else .eq) := by
  cases fitsB : fitsInt64 b with
  | true =>
    have typed : v = .integer b := by
      rw [Coercion.numberOfJson?, Json.Number.int64?, if_pos fitsB] at read
      exact (Option.some.inj read).symm
    rw [typed]
    change orderToInteger (.whole a) b = _
    cases fitsA : fitsInt64 a with
    | true =>
      have kept : Discerned a b := .inr (.inl ⟨fitsA, fitsB⟩)
      rw [orderToInteger, Json.Number.int64?, if_pos fitsA, if_pos kept]
    | false =>
      have large : ¬(fitsInt64 a = true ∧ fitsInt64 b = true) := by simp [fitsA]
      rw [orderToInteger, Json.Number.int64?, fitsA]
      exact order?_toReal rangeA rangeB large
  | false =>
    have large : ¬(fitsInt64 a = true ∧ fitsInt64 b = true) := by simp [fitsB]
    obtain ⟨y, _, realB⟩ := exists_toReal rangeB
    have rounded : v = .real (.finite y) := by
      rw [Coercion.numberOfJson?, Json.Number.int64?, fitsB, realB] at read
      exact (Option.some.inj read).symm
    rw [rounded, ← order?_toReal rangeA rangeB large, realB]
    rfl

theorem exists_numberOfJson? (inRange : IsJsonInteger b) :
    ∃ v, Coercion.numberOfJson? (.whole b) = some v := by
  obtain ⟨y, _, real⟩ := exists_toReal inRange
  rw [Coercion.numberOfJson?, real]
  cases (Json.Number.whole b).int64? with
  | some i => exact ⟨_, rfl⟩
  | none => exact ⟨_, rfl⟩

/-- Whole numbers that are not told apart compare as one and the same. -/
theorem satisfies_whole {op : Operator} (compares : op ∈ Operator.comparisons)
    (rangeA : IsJsonInteger a) (rangeB : IsJsonInteger b)
    (read : Coercion.numberOfJson? (.whole b) = some v) :
    satisfies op (.number (.whole a)) v = op.relates a (if Discerned a b then b else a) := by
  rw [satisfies_eq_holdsOrder compares, holdsOrder_of_order _ (order?_whole rangeA rangeB read),
    ← Operator.admits_compare compares]
  split
  next => rfl
  next => rw [compare_eq_iff_eq.mpr rfl]

theorem exists_values {d : FieldDefinition} (field : String) {items : List RawValue}
    {bs : List Int} (numeric : d.fieldType = .number) (gives : List.Forall₂ GivesWhole items bs)
    (inRange : ∀ b ∈ bs, IsJsonInteger b) :
    ∃ values, items.mapM (Coercion.scalar d field) = .ok values ∧
      List.Forall₂ (fun b v => Coercion.numberOfJson? (.whole b) = some v) bs values := by
  induction gives with
  | nil => exact ⟨[], rfl, .nil⟩
  | cons first _ ih =>
    obtain ⟨here, there⟩ := List.forall_mem_cons.mp inRange
    obtain ⟨v, read⟩ := exists_numberOfJson? here
    obtain ⟨values, others, rest⟩ := ih there
    refine ⟨v :: values, Tree.mapM_of_forall₂ (.cons ?_ (Tree.forall₂_of_mapM others)),
      .cons read rest⟩
    exact Coercion.scalar_of_givesWhole numeric first read

theorem satisfies_isIn_whole {bs : List Int} {values : List TypedValue} (rangeA : IsJsonInteger a)
    (rangeBs : ∀ b ∈ bs, IsJsonInteger b)
    (read : List.Forall₂ (fun b v => Coercion.numberOfJson? (.whole b) = some v) bs values) :
    satisfies .isIn (.number (.whole a)) (.list values) = true ↔
      ∃ b ∈ bs, Discerned a b → a = b := by
  have equal {b : Int} {v : TypedValue} (inList : b ∈ bs)
      (read : Coercion.numberOfJson? (.whole b) = some v) :
      satisfies .eq (.number (.whole a)) v = true ↔ (Discerned a b → a = b) := by
    rw [satisfies_whole (by decide) rangeA (rangeBs b inList) read, Operator.relates,
      decide_eq_true_eq]
    split
    next discerned => exact ⟨fun same _ => same, fun same => same discerned⟩
    next taken => exact ⟨fun _ discerned => absurd discerned taken, fun _ => rfl⟩
  rw [satisfies_isIn_iff]
  constructor
  · rintro ⟨v, member, holds⟩
    obtain ⟨b, inList, read⟩ := Tree.exists_of_mem_right read member
    exact ⟨b, inList, (equal inList read).mp holds⟩
  · rintro ⟨b, inList, same⟩
    obtain ⟨v, member, read⟩ := Tree.exists_of_mem_left read inList
    exact ⟨v, member, (equal inList read).mpr same⟩

end
end Matching

namespace TypedFilter

variable {d : FieldDefinition} {field column : String} {record : Record} {a b : Int}

theorem accepts_whole {op : Operator} {v : TypedValue} (compares : op ∈ Operator.comparisons)
    (given : Matching.fieldValue? record field = some (.number (.whole a)))
    (rangeA : IsJsonInteger a) (rangeB : IsJsonInteger b)
    (read : Coercion.numberOfJson? (.whole b) = some v) :
    accepts ⟨field, column, op, some v⟩ record =
      op.relates a (if Matching.Discerned a b then b else a) := by
  rw [accepts_eq given (List.mem_append_left _ compares),
    Matching.satisfies_whole compares rangeA rangeB read]

theorem accepts_list_whole {op : Operator} {bs : List Int} {values : List TypedValue}
    (inList : op ∈ [Operator.isIn, .notIn]) (numeric : d.fieldType = .number)
    (given : Matching.fieldValue? record field = some (.number (.whole a)))
    (typed : ∀ v ∈ values, d.admits v = true) (rangeA : IsJsonInteger a)
    (rangeBs : ∀ b ∈ bs, IsJsonInteger b)
    (read : List.Forall₂ (fun b v => Coercion.numberOfJson? (.whole b) = some v) bs values)
    (discerned : ∀ b ∈ bs, Matching.Discerned a b) :
    accepts ⟨field, column, op, some (.list values)⟩ record = true ↔
      if op = .isIn then a ∈ bs else a ∉ bs := by
  have isIn : Matching.satisfies .isIn (.number (.whole a)) (.list values) = true ↔ a ∈ bs := by
    rw [Matching.satisfies_isIn_whole rangeA rangeBs read]
    exact ⟨fun ⟨b, member, same⟩ => same (discerned b member) ▸ member,
      fun member => ⟨a, member, fun _ => rfl⟩⟩
  have comparable : Matching.comparable d.fieldType (.number (.whole a)) = true := by
    rw [numeric]
    rfl
  rw [accepts_eq given (List.mem_append_right _ inList)]
  simp only [List.mem_cons, List.not_mem_nil, or_false] at inList
  rcases inList with rfl | rfl
  · exact isIn
  · change Matching.satisfies .notIn _ _ = true ↔ a ∉ bs
    rw [Matching.satisfies_notIn_of_comparable typed comparable, Bool.not_eq_true',
      Bool.eq_false_iff, Ne, isIn]

end TypedFilter

/-- Comparisons of a whole number in a record with one that is given as the value of a filter on a
field of numbers, as a JSON number or in decimal. They are exact, if comparison tells the two numbers
apart or they are the same; otherwise the two count as one. Membership is exact, if comparison tells
the number in the record apart from all in the list. -/
theorem compares_whole {schema : Schema} {field : String} {d : FieldDefinition} {record : Record}
    {a : Int} (defined : schema.field? field = some d) (numeric : d.fieldType = .number)
    (found : Json.member? record field = some (.number (.whole a))) (rangeA : IsJsonInteger a) :
    (∀ op ∈ Operator.comparisons, op ∈ d.operators → ∀ operator raw b,
      Operator.ofName? operator = some op → GivesWhole raw b → IsJsonInteger b →
        ∃ typed, Filter.coerce schema ⟨field, operator, some raw⟩ = .ok typed ∧
          (Matching.Discerned a b → typed.accepts record = op.relates a b) ∧
          (¬Matching.Discerned a b → typed.accepts record = op.relates a a)) ∧
    ∀ op ∈ [Operator.isIn, .notIn], op ∈ d.operators → ∀ operator items bs,
      Operator.ofName? operator = some op → List.Forall₂ GivesWhole items bs →
        (∀ b ∈ bs, IsJsonInteger b) →
        ∃ typed, Filter.coerce schema ⟨field, operator, some (.list items)⟩ = .ok typed ∧
          ((∀ b ∈ bs, Matching.Discerned a b) →
            (typed.accepts record = true ↔ if op = .isIn then a ∈ bs else a ∉ bs)) := by
  have given := Matching.fieldValue?_eq found rfl
  constructor
  · intro op compares allowed operator raw b named gives rangeB
    have takes : ∀ op ∈ Operator.comparisons, op.takesValue = true ∧ op.takesList = false := by
      decide
    obtain ⟨v, read⟩ := Matching.exists_numberOfJson? rangeB
    refine ⟨_, Filter.coerce_of_scalar defined named allowed (takes op compares)
      (Coercion.scalar_of_givesWhole numeric gives read), ?_⟩
    rw [TypedFilter.accepts_whole compares given rangeA rangeB read]
    exact ⟨fun discerned => by rw [if_pos discerned], fun taken => by rw [if_neg taken]⟩
  · intro op inList allowed operator items bs named gives rangeBs
    have takes : ∀ op ∈ [Operator.isIn, .notIn], op.takesValue = true ∧ op.takesList = true := by
      decide
    obtain ⟨values, each, read⟩ := Matching.exists_values field numeric gives rangeBs
    have typed := Coercion.admits_of_mapM_scalar each
    exact ⟨_, Filter.coerce_of_list defined named allowed (takes op inList) each,
      TypedFilter.accepts_list_whole inList numeric given typed rangeA rangeBs read⟩

/-- The largest whole number in a record, compared with a number in text that is rounded by one, and
looked for in a list of small and large numbers. -/
theorem compares_whole_largest :
    let fields : List (String × FieldDefinition) := [("votes", .new "f.votes" .number)]
    let record : Record := [("votes", .number (.whole 18446744073709551615))]
    let least : Filter := ⟨"votes", "GTE", some (.text "9223372036854775807")⟩
    let others : Filter := ⟨"votes", "nin", some (.list
      [.number (.whole 9223372036854775808), .text "-9223372036854775808"])⟩
    ∃ schema, Schema.build "films" fields = .ok schema ∧
      (∃ typed, least.coerce schema = .ok typed ∧ typed.accepts record = true) ∧
      ∃ typed, others.coerce schema = .ok typed ∧ typed.accepts record = true := by
  intro fields record least others
  obtain ⟨schema, built, defined⟩ : ∃ schema, Schema.build "films" fields = .ok schema ∧
      schema.field? "votes" = some (.new "f.votes" .number) := by
    subst fields
    exact ⟨_, rfl, rfl⟩
  have found : Json.member? record "votes" = some (.number (.whole 18446744073709551615)) := rfl
  obtain ⟨single, list⟩ := compares_whole defined rfl found ⟨by decide, by decide⟩
  have apart (b : Int) (different : Binary64.ofInt? 18446744073709551615 ≠ Binary64.ofInt? b) :
      Matching.Discerned 18446744073709551615 b := .inr (.inr different)
  refine ⟨schema, built, ?_, ?_⟩
  · obtain ⟨typed, coerced, exactly, _⟩ := single .gte (by decide) (by decide) "GTE"
      (.text "9223372036854775807") 9223372036854775807 (by decide +kernel)
      (GivesWhole.text 9223372036854775807) ⟨by decide, by decide⟩
    exact ⟨typed, coerced, (exactly (apart _ (by decide +kernel))).trans (by decide)⟩
  · obtain ⟨typed, coerced, exactly⟩ := list .notIn (by decide) (by decide) "nin" _
      [9223372036854775808, -9223372036854775808] (by decide +kernel)
      (.cons (.number _) (.cons (GivesWhole.text (-9223372036854775808)) .nil)) (by
        intro b member
        simp only [List.mem_cons, List.not_mem_nil, or_false] at member
        rcases member with rfl | rfl <;> exact ⟨by decide, by decide⟩)
    refine ⟨typed, coerced, (exactly ?_).mpr (by decide)⟩
    intro b member
    simp only [List.mem_cons, List.not_mem_nil, or_false] at member
    rcases member with rfl | rfl <;> exact apart _ (by decide +kernel)

/-- A number in a record is taken for the one before it, in a comparison and in a list. -/
theorem whole_taken_for_another :
    let fields : List (String × FieldDefinition) := [("votes", .new "f.votes" .number)]
    let record (a : Int) : Record := [("votes", .number (.whole a))]
    let same : Filter := ⟨"votes", "eq", some (.text "9223372036854775807")⟩
    let others : Filter := ⟨"votes", "nin", some (.list [.number (.whole 18446744073709551614)])⟩
    ∃ schema, Schema.build "films" fields = .ok schema ∧
      (∃ typed, same.coerce schema = .ok typed ∧
        typed.accepts (record 9223372036854775808) = true) ∧
      ∃ typed, others.coerce schema = .ok typed ∧
        typed.accepts (record 18446744073709551615) = false := by
  intro fields record same others
  let large : Binary64 := ⟨false, 4895412794951729152, by decide⟩
  have rounded : Coercion.numberOfJson? (.whole 18446744073709551614) =
      some (.real (.finite large)) := by
    have nearest : (Json.Number.whole 18446744073709551614).toReal.finite? = some large := by
      decide +kernel
    have long : (Json.Number.whole 18446744073709551614).int64? = none := rfl
    rw [Coercion.numberOfJson?, long, nearest]
    rfl
  have single : Coercion.scalar (.new "f.votes" .number) "votes" (.text "9223372036854775807") =
      .ok (.integer 9223372036854775807) :=
    Coercion.scalar_of_givesWhole rfl (GivesWhole.text 9223372036854775807) rfl
  have each : [.number (.whole 18446744073709551614)].mapM
      (Coercion.scalar (.new "f.votes" .number) "votes") = .ok [.real (.finite large)] :=
    Tree.mapM_of_forall₂
      (.cons (Coercion.scalar_of_givesWhole rfl (GivesWhole.number _) rounded) .nil)
  obtain ⟨schema, built, defined⟩ : ∃ schema, Schema.build "films" fields = .ok schema ∧
      schema.field? "votes" = some (.new "f.votes" .number) := by
    subst fields
    exact ⟨_, rfl, rfl⟩
  refine ⟨schema, built, ?_, ?_⟩
  · exact ⟨_, Filter.coerce_of_scalar defined (by decide +kernel : _ = some Operator.eq)
      (by decide) ⟨rfl, rfl⟩ single, by decide +kernel⟩
  · exact ⟨_, Filter.coerce_of_list defined (by decide +kernel : _ = some Operator.notIn)
      (by decide) ⟨rfl, rfl⟩ each, by decide +kernel⟩

end Sieve
