import Sieve.Matching
import Sieve.Proofs.Coercion

/-! Comparisons of values in records with the values of filters. Where two values have an order, every
comparison asks something of that order; where they have none, no comparison holds. -/
namespace Sieve

namespace Operator

def comparisons : List Operator :=
  [eq, neq, gt, gte, lt, lte]

def admits : Operator → Ordering → Bool
  | eq, o => o == .eq
  | neq, o => o != .eq
  | gt, o => o == .gt
  | gte, o => o != .lt
  | lt, o => o == .lt
  | lte, o => o != .gt
  | _, _ => false

end Operator

theorem Json.Number.toReal_ne_nan (n : Json.Number) : n.toReal ≠ .nan := by
  cases n with
  | whole i =>
    rw [toReal]
    cases Binary64.ofInt? i <;> simp [Real64.ofOption]
  | real x => exact nofun

theorem Real64.isSome_order? {x y : Real64} (left : x ≠ .nan) (right : y ≠ .nan) :
    (x.order? y).isSome = true := by
  cases x with
  | nan => exact absurd rfl left
  | finite | infinite =>
    cases y with
    | nan => exact absurd rfl right
    | finite | infinite => rfl

namespace Matching

def comparable : FieldType → Json → Bool
  | .string, .string _ => true
  | .enumeration, .string _ => true
  | .number, .number _ => true
  | .boolean, .bool _ => true
  | .uuid, .string s => (Uuid.parse? s).isSome
  | .timestamp, .string s => (Time.Instant.parse? s).isSome
  | _, _ => false

section
variable {actual : Json} {v : TypedValue} {d : FieldDefinition} {op : Operator}

theorem isSome_orderToInteger (n : Json.Number) (i : Int) :
    (orderToInteger n i).isSome = true := by
  unfold orderToInteger
  split
  · rfl
  · exact Real64.isSome_order? n.toReal_ne_nan (Json.Number.toReal_ne_nan _)

/-- Whether a value in a record has an order to one of the type of a field depends on that type and
not on the value of the filter. -/
theorem isSome_order? (typed : d.admits v = true) (actual : Json) :
    (order? actual v).isSome = comparable d.fieldType actual := by
  cases fieldType : d.fieldType <;> cases v <;>
    simp only [FieldDefinition.admits, fieldType, Bool.false_eq_true] at typed
  case string.text => cases actual <;> rfl
  case enumeration.text => cases actual <;> rfl
  case boolean.boolean => cases actual <;> rfl
  case number.integer i =>
    cases actual with
    | number n => exact isSome_orderToInteger n i
    | _ => rfl
  case number.real x =>
    cases x with
    | finite x =>
      cases actual with
      | number n => exact Real64.isSome_order? n.toReal_ne_nan (by simp)
      | _ => rfl
    | _ => cases typed
  case uuid.uuid =>
    cases actual with
    | string s => exact Option.isSome_map
    | _ => rfl
  case timestamp.timestamp =>
    cases actual with
    | string s => exact Option.isSome_map
    | _ => rfl

theorem holdsOrder_of_order {o : Ordering} (admits : Ordering → Bool)
    (found : order? actual v = some o) : holdsOrder admits actual v = admits o := by
  rw [holdsOrder, found, Option.map_some, Option.getD_some]

theorem holdsOrder_of_none (admits : Ordering → Bool) (none : order? actual v = none) :
    holdsOrder admits actual v = false := by
  rw [holdsOrder, none, Option.map_none, Option.getD_none]

theorem satisfies_eq_holdsOrder (compares : op ∈ Operator.comparisons) :
    satisfies op actual v = holdsOrder op.admits actual v := by
  simp only [Operator.comparisons, List.mem_cons, List.not_mem_nil, or_false] at compares
  rcases compares with rfl | rfl | rfl | rfl | rfl | rfl <;> rfl

end

/-- What the answers to comparisons with one value say about each other: exactly one of less, equal
and greater holds, and the others are made up of these. -/
structure Consistent (holds : Operator → Bool) : Prop where
  one : ∃! op, op ∈ [Operator.lt, .eq, .gt] ∧ holds op = true
  neq : holds .neq = !holds .eq
  gte : holds .gte = (holds .gt || holds .eq)
  lte : holds .lte = (holds .lt || holds .eq)

theorem consistent_admits (o : Ordering) : Consistent fun op => op.admits o where
  one := by
    have one : ∃ name ∈ [Operator.lt, .eq, .gt], name.admits o = true := by
      cases o <;> decide
    have unique : ∀ name ∈ [Operator.lt, .eq, .gt], name.admits o = true →
        ∀ op ∈ [Operator.lt, .eq, .gt], op.admits o = true → op = name := by
      cases o <;> decide
    obtain ⟨name, member, holds⟩ := one
    exact ⟨name, ⟨member, holds⟩, fun op other => unique name member holds op other.1 other.2⟩
  neq := by cases o <;> rfl
  gte := by cases o <;> rfl
  lte := by cases o <;> rfl

theorem Consistent.congr {holds holds' : Operator → Bool} (consistent : Consistent holds)
    (same : ∀ op ∈ Operator.comparisons, holds' op = holds op) : Consistent holds' := by
  have eq := same .eq (by decide)
  have gt := same .gt (by decide)
  have lt := same .lt (by decide)
  constructor
  · obtain ⟨name, ⟨member, one⟩, unique⟩ := consistent.one
    have within : ∀ op ∈ [Operator.lt, .eq, .gt], op ∈ Operator.comparisons := by decide
    refine ⟨name, ⟨member, (same name (within name member)).trans one⟩, ?_⟩
    rintro op ⟨inList, other⟩
    exact unique op ⟨inList, (same op (within op inList)).symm.trans other⟩
  · rw [same .neq (by decide), eq, consistent.neq]
  · rw [same .gte (by decide), gt, eq, consistent.gte]
  · rw [same .lte (by decide), lt, eq, consistent.lte]

section
variable {actual : Json} {v : TypedValue} {values : List TypedValue} {d : FieldDefinition}

/-- The six comparisons of two values, which agree with one order or do not hold at all. -/
theorem satisfies_cases (typed : d.admits v = true) (actual : Json) :
    if comparable d.fieldType actual then Consistent fun op => satisfies op actual v
    else ∀ op ∈ Operator.comparisons, satisfies op actual v = false := by
  rw [← isSome_order? typed actual]
  cases found : order? actual v with
  | none =>
    intro op compares
    rw [satisfies_eq_holdsOrder compares, holdsOrder_of_none _ found]
  | some o =>
    apply (consistent_admits o).congr
    intro op compares
    rw [satisfies_eq_holdsOrder compares, holdsOrder_of_order _ found]

theorem satisfies_isIn_iff :
    satisfies .isIn actual (.list values) = true ↔ ∃ v ∈ values, satisfies .eq actual v = true :=
  List.any_eq_true

theorem satisfies_notIn_iff :
    satisfies .notIn actual (.list values) = true ↔ ∀ v ∈ values, satisfies .neq actual v = true :=
  List.all_eq_true

theorem satisfies_notIn_of_comparable (typed : ∀ v ∈ values, d.admits v = true)
    (compares : comparable d.fieldType actual = true) :
    satisfies .notIn actual (.list values) = !satisfies .isIn actual (.list values) := by
  have complement (v : TypedValue) (member : v ∈ values) :
      satisfies .neq actual v = !satisfies .eq actual v := by
    have answers := satisfies_cases (typed v member) actual
    rw [if_pos compares] at answers
    exact answers.neq
  rw [Bool.eq_iff_iff, Bool.not_eq_true', Bool.eq_false_iff, Ne, satisfies_isIn_iff,
    satisfies_notIn_iff]
  simp only [not_exists, not_and, Bool.not_eq_true]
  apply forall₂_congr
  intro v member
  rw [complement v member, Bool.not_eq_true']

/-- Where it cannot be compared, the list is neither said to have it nor not to, unless it is empty. -/
theorem satisfies_list_of_not_comparable (typed : ∀ v ∈ values, d.admits v = true)
    (nonempty : values ≠ []) (refused : ¬comparable d.fieldType actual = true) :
    satisfies .isIn actual (.list values) = false ∧
      satisfies .notIn actual (.list values) = false := by
  have none {v : TypedValue} (member : v ∈ values) {op : Operator}
      (compares : op ∈ Operator.comparisons) : satisfies op actual v = false := by
    have answers := satisfies_cases (typed v member) actual
    rw [if_neg refused] at answers
    exact answers op compares
  constructor
  · rw [Bool.eq_false_iff, Ne, satisfies_isIn_iff]
    rintro ⟨v, member, equal⟩
    rw [none member (by decide)] at equal
    cases equal
  · obtain ⟨v, member⟩ := List.exists_mem_of_ne_nil values nonempty
    rw [Bool.eq_false_iff, Ne, satisfies_notIn_iff]
    intro all
    have differs := all v member
    rw [none member (by decide)] at differs
    cases differs

end
end Matching

namespace TypedFilter

theorem accepts_of_missing {f : TypedFilter} {record : Record} (takes : f.operator.takesValue = true)
    (missing : Matching.fieldValue? record f.field = none) : f.accepts record = false := by
  unfold accepts
  rw [missing]
  cases op : f.operator with
  | isNull | isNotNull =>
    rw [op] at takes
    cases takes
  | _ => rfl

section
variable {d : FieldDefinition} {field column : String} {record : Record} {actual : Json}
  {v : TypedValue} {values : List TypedValue}

theorem accepts_eq {op : Operator} (given : Matching.fieldValue? record field = some actual)
    (member : op ∈ Operator.comparisons ++ [.isIn, .notIn]) (v : TypedValue) :
    accepts ⟨field, column, op, some v⟩ record = Matching.satisfies op actual v := by
  have takes : ∀ op ∈ Operator.comparisons ++ [.isIn, .notIn], op.takesValue = true := by decide
  exact accepts_eq_satisfies (takes op member) given rfl

theorem accepts_cases (given : Matching.fieldValue? record field = some actual)
    (typed : d.admits v = true) :
    if Matching.comparable d.fieldType actual then
      Matching.Consistent fun op => accepts ⟨field, column, op, some v⟩ record
    else ∀ op ∈ Operator.comparisons, accepts ⟨field, column, op, some v⟩ record = false := by
  have same (op : Operator) (member : op ∈ Operator.comparisons) :
      accepts ⟨field, column, op, some v⟩ record = Matching.satisfies op actual v :=
    accepts_eq given (List.mem_append_left _ member) v
  have answers := Matching.satisfies_cases typed actual
  split
  next comparable =>
    rw [if_pos comparable] at answers
    exact answers.congr same
  next refused =>
    rw [if_neg refused] at answers
    exact fun op member => (same op member).trans (answers op member)

theorem accepts_isIn_iff (given : Matching.fieldValue? record field = some actual) :
    accepts ⟨field, column, .isIn, some (.list values)⟩ record = true ↔
      ∃ v ∈ values, accepts ⟨field, column, .eq, some v⟩ record = true := by
  simp only [accepts_eq given (by decide : .isIn ∈ Operator.comparisons ++ [.isIn, .notIn]),
    accepts_eq given (by decide : .eq ∈ Operator.comparisons ++ [.isIn, .notIn])]
  exact Matching.satisfies_isIn_iff

theorem accepts_notIn_cases (given : Matching.fieldValue? record field = some actual)
    (typed : ∀ v ∈ values, d.admits v = true) (nonempty : values ≠ []) :
    if Matching.comparable d.fieldType actual then
      accepts ⟨field, column, .notIn, some (.list values)⟩ record =
        !accepts ⟨field, column, .isIn, some (.list values)⟩ record
    else accepts ⟨field, column, .isIn, some (.list values)⟩ record = false ∧
      accepts ⟨field, column, .notIn, some (.list values)⟩ record = false := by
  rw [accepts_eq given (by decide), accepts_eq given (by decide)]
  split
  next comparable => exact Matching.satisfies_notIn_of_comparable typed comparable
  next refused => exact Matching.satisfies_list_of_not_comparable typed nonempty refused

end

end TypedFilter

/-- The comparisons of a value in a record with a value that was given the type of a field. If the
value can be compared with that type, exactly one of less, equal and greater holds, the other three
are made up of these, membership in a list that is not empty is equality with one of its values, and
just one of membership and its negation holds. If it cannot be compared, or is missing or null, none
of the eight holds. -/
theorem comparisons_consistent (d : FieldDefinition) (field : String) (record : Record) :
    let holds (v : TypedValue) (op : Operator) : Bool :=
      TypedFilter.accepts ⟨field, d.column, op, some v⟩ record
    (∀ actual, Json.member? record field = some actual → actual.isNull = false →
      (∀ raw v, Coercion.scalar d field raw = .ok v →
        if Matching.comparable d.fieldType actual then Matching.Consistent (holds v)
        else ∀ op ∈ Operator.comparisons, holds v op = false) ∧
      ∀ (items : List RawValue) (values : List TypedValue),
        items.mapM (Coercion.scalar d field) = .ok values → values ≠ [] →
        (holds (.list values) .isIn = true ↔ ∃ v ∈ values, holds v .eq = true) ∧
          if Matching.comparable d.fieldType actual then
            holds (.list values) .notIn = !holds (.list values) .isIn
          else holds (.list values) .isIn = false ∧ holds (.list values) .notIn = false) ∧
    ((∀ actual, Json.member? record field = some actual → actual.isNull = true) →
      ∀ v, ∀ op ∈ Operator.comparisons ++ [.isIn, .notIn], holds v op = false) := by
  intro holds
  constructor
  · intro actual found notNull
    have given := Matching.fieldValue?_eq found notNull
    constructor
    · intro raw v typed
      exact TypedFilter.accepts_cases given (Coercion.admits_of_scalar typed)
    · intro items values typed nonempty
      have each := Coercion.admits_of_mapM_scalar typed
      exact ⟨TypedFilter.accepts_isIn_iff given,
        TypedFilter.accepts_notIn_cases given each nonempty⟩
  · intro missing v op member
    have takes : ∀ op ∈ Operator.comparisons ++ [.isIn, .notIn], op.takesValue = true := by decide
    apply TypedFilter.accepts_of_missing (takes op member)
    rw [Matching.fieldValue?, Option.filter_eq_none_iff]
    intro actual found
    rw [missing actual found]
    decide

/-- A whole number between a list of a whole number and a fraction, a text that is no identifier, and
a field that is null. -/
theorem comparisons_consistent_films :
    let number : FieldDefinition := .new "f.year" .number
    let identifier : FieldDefinition := .new "f.id" .uuid
    let record : Record :=
      [("year", .number (.whole 9007199254740993)), ("id", .string "films"), ("title", .null)]
    let half : Binary64 := ⟨false, 4602678819172646912, by decide⟩
    let values : List TypedValue := [.integer 9007199254740992, .real (.finite half)]
    let uuid : TypedValue := .uuid ⟨0x67e5504410b1426f9247bb680e5fe0c8, by decide⟩
    let holds (d : FieldDefinition) (field : String) (op : Operator) (v : TypedValue) : Bool :=
      TypedFilter.accepts ⟨field, d.column, op, some v⟩ record
    (holds number "year" .gt (.integer 9007199254740992) = true ∧
      Matching.Consistent (holds number "year" · (.integer 9007199254740992))) ∧
    (holds number "year" .isIn (.list values) = false ∧
      holds number "year" .notIn (.list values) = !holds number "year" .isIn (.list values)) ∧
    (∀ op ∈ Operator.comparisons, holds identifier "id" op uuid = false) ∧
    ∀ op ∈ Operator.comparisons ++ [.isIn, .notIn], holds number "title" op (.integer 1) = false := by
  intro number identifier record half values uuid holds
  obtain ⟨years, _⟩ := comparisons_consistent number "year" record
  obtain ⟨single, list⟩ := years (.number (.whole 9007199254740993)) rfl rfl
  obtain ⟨texts, _⟩ := comparisons_consistent identifier "id" record
  obtain ⟨_, missing⟩ := comparisons_consistent number "title" record
  have items : [.number (.whole 9007199254740992), .number (.real half)].mapM
      (Coercion.scalar number "year") = .ok values := rfl
  have identified : Coercion.scalar identifier "id"
      (.text "67e55044-10b1-426f-9247-bb680e5fe0c8") = .ok uuid := by
    have read : Uuid.parse? "67e55044-10b1-426f-9247-bb680e5fe0c8" =
        some ⟨0x67e5504410b1426f9247bb680e5fe0c8, by decide⟩ := by decide +kernel
    simp only [Coercion.scalar, RawValue.isList, identifier, FieldDefinition.new, Coercion.uuid?, read]
    rfl
  refine ⟨⟨rfl, single (.number (.whole 9007199254740992)) _ rfl⟩,
    ⟨by decide +kernel, (list _ values items (by simp [values])).2⟩, ?_, ?_⟩
  · have refused : Matching.comparable identifier.fieldType (.string "films") = false := by
      decide +kernel
    have answers := (texts (.string "films") rfl rfl).1 _ uuid identified
    rwa [if_neg (ne_true_of_eq_false refused)] at answers
  · apply missing
    rintro _ ⟨⟩
    rfl

end Sieve
