import Mathlib.Data.String.Basic
import Sieve.Proofs.Expression.Reading

/-! The filters that come back from their own expressions. Names stand between colons and elements of
lists between commas, and nothing is escaped, so a filter comes back when none of its parts holds
the character that would cut it, or white space that would be dropped. -/
namespace Sieve.Expression

/-- A text that keeps its place between separators: there is something in it, no separator, and no
white space at its ends. -/
structure IsPart (separator : Char) (s : String) : Prop where
  nonempty : s ≠ ""
  unseparated : separator ∉ s.toList
  visible : Text.VisibleEnds s.toList

instance (separator : Char) (s : String) : Decidable (IsPart separator s) :=
  decidable_of_iff (s ≠ "" ∧ separator ∉ s.toList ∧ Text.VisibleEnds s.toList)
    ⟨fun ⟨nonempty, unseparated, visible⟩ => ⟨nonempty, unseparated, visible⟩,
      fun part => ⟨part.nonempty, part.unseparated, part.visible⟩⟩

inductive Holds (operator : String) : Option RawValue → Prop
  | absent : Holds operator none
  | text {s : String} (single : ¬NamesList operator) (nonempty : s ≠ "") :
      Holds operator (some (.text s))
  | list {items : List String} (list : NamesList operator) (nonempty : items ≠ [])
      (parts : ∀ item ∈ items, IsPart ',' item) : Holds operator (some (.list (items.map .text)))

structure Canonical (f : Filter) : Prop where
  field : IsPart ':' f.field
  operator : IsPart ':' f.operator
  value : Holds f.operator f.value

variable {expression operator : String} {f : Filter} {limits : Limits}

theorem isPart_trim {separator : Char} {s : List Char} (nonempty : Text.trim s ≠ [])
    (unseparated : separator ∉ s) : IsPart separator (String.ofList (Text.trim s)) where
  nonempty := fun empty => nonempty (String.ofList_eq_empty_iff.mp empty)
  unseparated := by
    rw [String.toList_ofList]
    exact fun member => unseparated ((Text.trim_sublist s).subset member)
  visible := by
    rw [String.toList_ofList]
    exact Text.visibleEnds_trim s

theorem IsPart.trim_eq {separator : Char} {s : String} (part : IsPart separator s) :
    Text.trim s.toList = s.toList :=
  Text.trim_of_visibleEnds part.visible

theorem IsPart.toList_ne_nil {separator : Char} {s : String} (part : IsPart separator s) :
    s.toList ≠ [] :=
  fun empty => part.nonempty (String.toList_eq_nil_iff.mp empty)

def shown (value : Option RawValue) : List Char :=
  ((value.map RawValue.display).getD "").toList

theorem toList_displayItems (items : List String) :
    (RawValue.displayItems (items.map .text)).toList = [','].intercalate (items.map String.toList) := by
  induction items with
  | nil => rfl
  | cons item rest ih =>
    cases rest with
    | nil => simp [RawValue.displayItems, RawValue.display]
    | cons next rest =>
      have first : (RawValue.displayItems ((item :: next :: rest).map .text)).toList =
          item.toList ++ [','] ++ (RawValue.displayItems ((next :: rest).map .text)).toList := by
        simp [RawValue.displayItems, RawValue.display]
      rw [first, ih]
      exact List.intercalate_cons_cons.symm

theorem holds_of_valued {written : List Char} {value : Option RawValue}
    (valued : Valued operator written value) : Holds operator value := by
  cases valued with
  | absent => exact .absent
  | text single nonempty =>
    exact .text single fun empty => nonempty (String.ofList_eq_empty_iff.mp empty)
  | list list nonempty visible =>
    refine .list list (by simpa [elementsOf] using Text.pieces_ne_nil ',' written) ?_
    intro item member
    obtain ⟨piece, inPieces, rfl⟩ := List.mem_map.mp member
    exact isPart_trim (visible piece inPieces) (Text.not_mem_of_mem_pieces inPieces)

theorem Holds.valued {value : Option RawValue} (holds : Holds operator value) :
    Valued operator (shown value) value := by
  cases holds with
  | absent => exact .absent
  | @text s single nonempty =>
    have valued := Valued.text single (mt String.toList_eq_nil_iff.mp nonempty)
    rwa [String.ofList_toList] at valued
  | @list items list nonempty parts =>
    have pieces : Text.pieces ',' (shown (some (.list (items.map .text)))) =
        items.map String.toList := by
      rw [shown, Option.map_some, Option.getD_some, RawValue.display, toList_displayItems]
      apply Text.pieces_intercalate
      · intro part member
        obtain ⟨item, inItems, rfl⟩ := List.mem_map.mp member
        exact (parts item inItems).unseparated
      · simpa using nonempty
    have kept : elementsOf (shown (some (.list (items.map .text)))) = items := by
      have each : ∀ item ∈ items, String.ofList (Text.trim item.toList) = item := by
        intro item member
        rw [(parts item member).trim_eq, String.ofList_toList]
      rw [elementsOf, pieces, List.map_map]
      exact (List.map_congr_left each).trans (List.map_id' items)
    have visible : ∀ piece ∈ items.map String.toList, Text.trim piece ≠ [] := by
      intro piece member
      obtain ⟨item, inItems, rfl⟩ := List.mem_map.mp member
      rw [(parts item inItems).trim_eq]
      exact (parts item inItems).toList_ne_nil
    have shownNonempty : shown (some (.list (items.map .text))) ≠ [] := by
      intro empty
      -- An empty text has one piece, which is blank.
      rw [empty] at pieces
      exact visible [] (pieces ▸ List.mem_singleton_self []) rfl
    have valued := Valued.list list shownNonempty (pieces ▸ visible)
    rwa [kept] at valued

theorem toList_expression (f : Filter) :
    f.expression.toList =
      f.field.toList ++ ':' :: (f.operator.toList ++ ':' :: shown f.value) := by
  simp [Filter.expression, shown]

/-- Whatever is read from an expression can be read back. -/
theorem canonical_of_parseUnlimited (read : parseUnlimited expression = .ok f) : Canonical f := by
  obtain ⟨field, operator, value, parts, fieldVisible, operatorVisible, fieldIs, operatorIs,
    valued⟩ := parseUnlimited_eq_ok_iff.mp read
  refine ⟨?_, ?_, holds_of_valued valued⟩
  · rw [fieldIs]
    exact isPart_trim fieldVisible parts.field
  · rw [operatorIs]
    exact isPart_trim operatorVisible parts.operator

theorem Canonical.parseUnlimited_expression (canonical : Canonical f) :
    parseUnlimited f.expression = .ok f := by
  have field := canonical.field
  have operator := canonical.operator
  refine parseUnlimited_eq_ok_iff.mpr ⟨f.field.toList, f.operator.toList, some (shown f.value),
    ⟨toList_expression f, field.unseparated, operator.unseparated⟩, ?_⟩
  rw [field.trim_eq, operator.trim_eq, String.ofList_toList, String.ofList_toList]
  exact ⟨field.toList_ne_nil, operator.toList_ne_nil, rfl, rfl, canonical.value.valued⟩

theorem intercalate_trim_sublist (pieces : List (List Char)) :
    ([','].intercalate (pieces.map Text.trim)).Sublist ([','].intercalate pieces) := by
  induction pieces with
  | nil => exact .slnil
  | cons piece rest ih =>
    cases rest with
    | nil => simpa using Text.trim_sublist piece
    | cons next rest =>
      rw [List.map_cons, List.map_cons, List.intercalate_cons_cons, List.intercalate_cons_cons,
        ← List.map_cons]
      exact ((Text.trim_sublist piece).append (.refl [','])).append ih

theorem shown_sublist {written : List Char} {value : Option RawValue}
    (valued : Valued operator written value) : (shown value).Sublist written := by
  cases valued with
  | absent => exact .slnil
  | text => simp [shown, RawValue.display]
  | list =>
    have trimmed : (elementsOf written).map String.toList =
        (Text.pieces ',' written).map Text.trim := by
      rw [elementsOf, List.map_map]
      apply List.map_congr_left
      intro piece _
      exact String.toList_ofList
    have shorter := intercalate_trim_sublist (Text.pieces ',' written)
    rw [Text.intercalate_pieces] at shorter
    rw [shown, Option.map_some, Option.getD_some, RawValue.display, toList_displayItems, trimmed]
    exact shorter

/-- The expression of what is read is at most as long, but for a colon that was not there. -/
theorem utf8ByteSize_expression_le (read : parseUnlimited expression = .ok f) :
    (2 ≤ expression.toList.count ':' →
        f.expression.utf8ByteSize ≤ expression.utf8ByteSize) ∧
      (expression.toList.count ':' = 1 →
        f.expression.utf8ByteSize ≤ expression.utf8ByteSize + 1) := by
  obtain ⟨field, operator, value, parts, _, _, fieldIs, operatorIs, valued⟩ :=
    parseUnlimited_eq_ok_iff.mp read
  have fieldShorter : f.field.toList.Sublist field := by
    rw [fieldIs, String.toList_ofList]
    exact Text.trim_sublist field
  have operatorShorter : f.operator.toList.Sublist operator := by
    rw [operatorIs, String.toList_ofList]
    exact Text.trim_sublist operator
  rw [← String.utf8Len_toList, ← String.utf8Len_toList, toList_expression, parts.whole,
    List.count_append, List.count_cons_self, List.count_append, List.count_eq_zero.mpr parts.field,
    List.count_eq_zero.mpr parts.operator]
  cases value with
  | none =>
    have absent : f.value = none := Valued.eq_none valued
    have shorter := String.utf8Len_le_of_sublist
      (fieldShorter.append (.cons_cons ':' operatorShorter))
    have colon : String.utf8Len [':'] = 1 := by decide
    rw [absent, Option.map_none, Option.getD_none, List.append_nil]
    refine ⟨by simp, fun _ => ?_⟩
    calc String.utf8Len (f.field.toList ++ ':' :: (f.operator.toList ++ [':']))
        = String.utf8Len (f.field.toList ++ ':' :: f.operator.toList) + String.utf8Len [':'] := by
          rw [← String.utf8Len_append, List.append_assoc, List.cons_append]
      _ ≤ String.utf8Len (field ++ ':' :: operator) + 1 := Nat.add_le_add shorter colon.le
  | some value =>
    have shorter := String.utf8Len_le_of_sublist (fieldShorter.append
      (.cons_cons ':' (operatorShorter.append (.cons_cons ':' (shown_sublist valued)))))
    exact ⟨fun _ => shorter, fun _ => Nat.le_succ_of_le shorter⟩

/-- An expression that is accepted gives a filter whose own expression can be read back, and which is
no longer unless the second colon was missing. The expressions of these filters, and of no others,
are read as the filters themselves. -/
theorem parse_expression_iff_canonical (limits : Limits) :
    (∀ expression f, parse limits expression = .ok f →
      Canonical f ∧
      (2 ≤ expression.toList.count ':' →
        f.expression.utf8ByteSize ≤ expression.utf8ByteSize ∧
          parse limits f.expression = .ok f) ∧
      (expression.toList.count ':' = 1 →
        f.expression.utf8ByteSize ≤ expression.utf8ByteSize + 1)) ∧
    ∀ f : Filter, f.expression.utf8ByteSize ≤ limits.maxInputBytes →
      (parse limits f.expression = .ok f ↔ Canonical f) := by
  constructor
  · intro expression f accepted
    obtain ⟨within, read⟩ := parse_eq_ok_iff.mp accepted
    have canonical := canonical_of_parseUnlimited read
    obtain ⟨twoColons, oneColon⟩ := utf8ByteSize_expression_le read
    refine ⟨canonical, fun colons => ⟨twoColons colons, ?_⟩, oneColon⟩
    exact parse_eq_ok_iff.mpr
      ⟨(twoColons colons).trans within, canonical.parseUnlimited_expression⟩
  · intro f within
    constructor
    · intro accepted
      exact canonical_of_parseUnlimited (parse_eq_ok_iff.mp accepted).2
    · intro canonical
      exact parse_eq_ok_iff.mpr ⟨within, canonical.parseUnlimited_expression⟩

/-- White space around names and elements, an operator in capitals, a second colon that is missing,
and a number, which comes back as text. -/
theorem parse_expression_iff_canonical_genres :
    let loose := " genre :NIN: noir\u3000, drama"
    let genres : Filter := ⟨"genre", "NIN", some (.list [.text "noir", .text "drama"])⟩
    let unrated : Filter := ⟨"rating", "isNull", none⟩
    let year : Filter := ⟨"year", "eq", some (.number (.whole 1950))⟩
    (parse .standard loose = .ok genres ∧ Canonical genres ∧
        genres.expression.utf8ByteSize ≤ loose.utf8ByteSize ∧
          parse .standard genres.expression = .ok genres) ∧
      (parse .standard "rating:isNull" = .ok unrated ∧
        unrated.expression.utf8ByteSize ≤ "rating:isNull".utf8ByteSize + 1) ∧
      parse .standard year.expression = .ok ⟨"year", "eq", some (.text "1950")⟩ ∧
        ¬Canonical year := by
  intro loose genres unrated year
  obtain ⟨accepted, own⟩ := parse_expression_iff_canonical .standard
  have looseRead : parse .standard loose = .ok genres := by
    subst loose
    exact parse_eq_ok_iff.mpr ⟨by decide +kernel, rfl⟩
  have unratedRead : parse .standard "rating:isNull" = .ok unrated :=
    parse_eq_ok_iff.mpr ⟨by decide +kernel, rfl⟩
  have yearRead : parse .standard year.expression = .ok ⟨"year", "eq", some (.text "1950")⟩ := by
    subst year
    exact parse_eq_ok_iff.mpr ⟨by decide +kernel, rfl⟩
  obtain ⟨canonical, twoColons, _⟩ := accepted loose genres looseRead
  obtain ⟨_, _, oneColon⟩ := accepted "rating:isNull" unrated unratedRead
  have notCanonical : ¬Canonical year := by
    intro canonical
    have same := (own year (by decide +kernel)).mpr canonical
    rw [yearRead] at same
    exact nomatch congrArg Filter.value (Except.ok.inj same)
  exact ⟨⟨looseRead, canonical, twoColons (by decide +kernel)⟩,
    ⟨unratedRead, oneColon (by decide +kernel)⟩, yearRead, notCanonical⟩

end Sieve.Expression
