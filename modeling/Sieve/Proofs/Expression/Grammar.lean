import Sieve.Proofs.Expression.Refusal
import Sieve.Proofs.Modes

/-! The grammar of expressions, and the filter that an expression is, said without the steps by which
it is read. -/
namespace Sieve.Expression

/-- The parts that make an expression. Neither name is blank, nor is any element of the value where
the operator takes a list. The value is free otherwise. -/
structure Readable (field operator : List Char) (value : Option (List Char)) : Prop where
  fieldVisible : Text.Visible field
  operatorVisible : Text.Visible operator
  elementsVisible : ∀ (name : String) (written : List Char),
    Text.Trims operator name.toList → NamesList name → value = some written → written ≠ [] →
      ∀ piece ∈ written.splitOn ',', Text.Visible piece

structure Gives (field operator : List Char) (value : Option (List Char)) (f : Filter) : Prop where
  field : Text.Trims field f.field.toList
  operator : Text.Trims operator f.operator.toList
  absent : value = none ∨ value = some [] → f.value = none
  list : ∀ written, value = some written → written ≠ [] → NamesList f.operator →
    ∃ items : List String, f.value = some (.list (items.map .text)) ∧
      List.Forall₂ (fun piece item => Text.Trims piece item.toList) (written.splitOn ',') items
  text : ∀ written, value = some written → written ≠ [] → ¬NamesList f.operator →
    f.value = some (.text (String.ofList written))

variable {limits : Limits} {expression : String} {expressions : List String}
  {field operator : List Char} {value : Option (List Char)} {f : Filter}

theorem trims_toList_iff {s : List Char} {t : String} :
    Text.Trims s t.toList ↔ t = String.ofList (Text.trim s) := by
  rw [Text.trims_iff]
  constructor
  · intro same
    rw [same, String.ofList_toList]
  · rintro rfl
    rw [String.toList_ofList]

theorem trims_pieces_iff {written : List Char} {items : List String} :
    List.Forall₂ (fun piece item => Text.Trims piece item.toList) (written.splitOn ',') items ↔
      items = elementsOf written := by
  simp only [trims_toList_iff]
  rw [elementsOf, Text.pieces_eq_splitOn, eq_comm, ← List.forall₂_eq_eq_eq,
    List.forall₂_map_left_iff]
  simp only [eq_comm]

theorem visible_pieces_iff {written : List Char} :
    (∀ piece ∈ written.splitOn ',', Text.Visible piece) ↔
      ∀ piece ∈ Text.pieces ',' written, Text.trim piece ≠ [] := by
  simp only [Text.pieces_eq_splitOn, Text.visible_iff]

theorem Gives.valued (gives : Gives field operator value f)
    (readable : Readable field operator value) : Valued f.operator (value.getD []) f.value := by
  cases value with
  | none =>
    rw [gives.absent (.inl rfl)]
    exact .absent
  | some written =>
    rw [Option.getD_some]
    by_cases empty : written = []
    · subst empty
      rw [gives.absent (.inr rfl)]
      exact .absent
    · by_cases takes : NamesList f.operator
      · obtain ⟨items, given, trimmed⟩ := gives.list written rfl empty takes
        have visible := readable.elementsVisible f.operator written gives.operator takes rfl empty
        rw [given, trims_pieces_iff.mp trimmed]
        exact .list takes empty (visible_pieces_iff.mp visible)
      · rw [gives.text written rfl empty takes]
        exact .text takes empty

theorem gives_of_valued (fieldIs : f.field = String.ofList (Text.trim field))
    (operatorIs : f.operator = String.ofList (Text.trim operator))
    (valued : Valued f.operator (value.getD []) f.value) : Gives field operator value f where
  field := trims_toList_iff.mpr fieldIs
  operator := trims_toList_iff.mpr operatorIs
  absent := by
    rintro (rfl | rfl) <;> exact valued.eq_none
  list := by
    rintro written rfl nonempty takes
    generalize f.value = given at valued
    cases valued with
    | absent => exact absurd rfl nonempty
    | text single => exact absurd takes single
    | list => exact ⟨elementsOf written, rfl, trims_pieces_iff.mpr rfl⟩
  text := by
    rintro written rfl nonempty single
    generalize f.value = given at valued
    cases valued with
    | absent => exact absurd rfl nonempty
    | text => rfl
    | list takes => exact absurd takes single

theorem readable_of_valued {given : Option RawValue} (fieldVisible : Text.trim field ≠ [])
    (operatorVisible : Text.trim operator ≠ [])
    (valued : Valued (String.ofList (Text.trim operator)) (value.getD []) given) :
    Readable field operator value where
  fieldVisible := Text.visible_iff.mpr fieldVisible
  operatorVisible := Text.visible_iff.mpr operatorVisible
  elementsVisible := by
    rintro name written trims takes rfl nonempty
    rw [trims_toList_iff.mp trims] at takes
    cases valued with
    | absent => exact absurd rfl nonempty
    | text single => exact absurd takes single
    | list _ _ visible => exact visible_pieces_iff.mpr visible

theorem Readable.exists_valued (readable : Readable field operator value) :
    ∃ given, Valued (String.ofList (Text.trim operator)) (value.getD []) given := by
  by_cases empty : value.getD [] = []
  · rw [empty]
    exact ⟨none, .absent⟩
  · by_cases takes : NamesList (String.ofList (Text.trim operator))
    · have visible : ∀ piece ∈ (value.getD []).splitOn ',', Text.Visible piece := by
        cases value with
        | none => exact absurd rfl empty
        | some written =>
          exact readable.elementsVisible _ written (trims_toList_iff.mpr rfl) takes rfl empty
      exact ⟨_, .list takes empty (visible_pieces_iff.mp visible)⟩
    · exact ⟨_, .text takes empty⟩

theorem Readable.exists_gives (readable : Readable field operator value) :
    ∃ f, Gives field operator value f := by
  obtain ⟨given, valued⟩ := readable.exists_valued
  exact ⟨⟨_, _, given⟩, gives_of_valued rfl rfl valued⟩

theorem parse_eq_ok_iff_gives :
    parse limits expression = .ok f ↔
      expression.utf8ByteSize ≤ limits.maxInputBytes ∧ ∃ field operator value,
        Parts expression field operator value ∧ Readable field operator value ∧
          Gives field operator value f := by
  rw [parse_eq_ok_iff, parseUnlimited_eq_ok_iff]
  refine and_congr_right fun _ => ?_
  constructor
  · rintro ⟨field, operator, value, parts, fieldVisible, operatorVisible, fieldIs, operatorIs,
      valued⟩
    refine ⟨field, operator, value, parts, ?_, gives_of_valued fieldIs operatorIs valued⟩
    exact readable_of_valued fieldVisible operatorVisible (operatorIs ▸ valued)
  · rintro ⟨field, operator, value, parts, readable, gives⟩
    exact ⟨field, operator, value, parts, Text.visible_iff.mp readable.fieldVisible,
      Text.visible_iff.mp readable.operatorVisible, trims_toList_iff.mp gives.field,
      trims_toList_iff.mp gives.operator, gives.valued readable⟩

/-- An expression is accepted exactly where it can be read. -/
theorem parse_succeeds_iff :
    (∃ f, parse limits expression = .ok f) ↔
      expression.utf8ByteSize ≤ limits.maxInputBytes ∧ ∃ field operator value,
        Parts expression field operator value ∧ Readable field operator value := by
  simp only [parse_eq_ok_iff_gives]
  constructor
  · rintro ⟨f, within, field, operator, value, parts, readable, _⟩
    exact ⟨within, field, operator, value, parts, readable⟩
  · rintro ⟨within, field, operator, value, parts, readable⟩
    obtain ⟨f, gives⟩ := readable.exists_gives
    exact ⟨f, within, field, operator, value, parts, readable, gives⟩

theorem parseAll_eq_error_iff {e : FilterError} (within : expressions.length ≤ limits.maxFilters) :
    parseAll limits expressions = .error e ↔
      ∃ before refused after, expressions = before ++ refused :: after ∧
        (∀ earlier ∈ before, ∃ f, parse limits earlier = .ok f) ∧
          parse limits refused = .error e := by
  rw [parseAll, if_neg (Nat.not_lt.mpr within), map_eq_error, mapM_eq_error_iff_first]

theorem parseAll_succeeds_iff :
    (∃ tree, parseAll limits expressions = .ok tree) ↔
      expressions.length ≤ limits.maxFilters ∧
        ∀ e ∈ expressions, ∃ f, parse limits e = .ok f := by
  constructor
  · rintro ⟨tree, accepted⟩
    obtain ⟨within, filters, each, _⟩ := parseAll_eq_ok_iff.mp accepted
    refine ⟨within, fun e member => ?_⟩
    obtain ⟨f, _, read⟩ := Tree.exists_of_mem_left each member
    exact ⟨f, read⟩
  · rintro ⟨within, each⟩
    cases outcome : parseAll limits expressions with
    | ok tree => exact ⟨tree, rfl⟩
    | error e =>
      obtain ⟨before, refused, after, rfl, _, failed⟩ := (parseAll_eq_error_iff within).mp outcome
      obtain ⟨f, read⟩ := each refused (List.mem_append_right before List.mem_cons_self)
      rw [failed] at read
      cases read

/-- The expressions that are accepted are those of the grammar, and each gives the one filter that its
parts give, so that a value behind the second colon keeps its colons, commas and white space. Several
expressions are accepted if there are not too many of them and each is accepted, and give the
conjunction of their filters. Otherwise the first of them that is refused says why. -/
theorem parse_grammar (limits : Limits) :
    (∀ expression f, parse limits expression = .ok f ↔
      expression.utf8ByteSize ≤ limits.maxInputBytes ∧ ∃ field operator value,
        Parts expression field operator value ∧ Readable field operator value ∧
          Gives field operator value f) ∧
    (∀ expression, (∃ f, parse limits expression = .ok f) ↔
      expression.utf8ByteSize ≤ limits.maxInputBytes ∧ ∃ field operator value,
        Parts expression field operator value ∧ Readable field operator value) ∧
    (∀ expressions, (∃ tree, parseAll limits expressions = .ok tree) ↔
      expressions.length ≤ limits.maxFilters ∧
        ∀ expression ∈ expressions, ∃ f, parse limits expression = .ok f) ∧
    (∀ expressions tree, parseAll limits expressions = .ok tree ↔
      expressions.length ≤ limits.maxFilters ∧ ∃ filters,
        List.Forall₂ (fun expression f => parse limits expression = .ok f) expressions filters ∧
          tree = .group .and filters []) ∧
    (∀ expressions e, expressions.length ≤ limits.maxFilters →
      (parseAll limits expressions = .error e ↔
        ∃ before refused after, expressions = before ++ refused :: after ∧
          (∀ earlier ∈ before, ∃ f, parse limits earlier = .ok f) ∧
            parse limits refused = .error e)) ∧
    (∀ expression e, parse limits expression = .error e → e.kind = .invalidFormat) ∧
    ∀ expressions e, parseAll limits expressions = .error e → e.kind = .invalidFormat :=
  ⟨fun _ _ => parse_eq_ok_iff_gives, fun _ => parse_succeeds_iff, fun _ => parseAll_succeeds_iff,
    fun _ _ => parseAll_eq_ok_iff, fun _ _ within => parseAll_eq_error_iff within,
    parse_malformedOnly limits, parseAll_malformedOnly limits⟩

/-- A text that keeps its colons, commas and white space, elements of a list that keep their colons,
and a blank element, for which the list is refused before what follows it is read. -/
theorem parse_grammar_notes :
    let kept := "note:like: at 9:30, or so "
    let listed := "\u3000tag:In:a:b ,c"
    let note : Filter := ⟨"note", "like", some (.text " at 9:30, or so ")⟩
    let tag : Filter := ⟨"tag", "In", some (.list [.text "a:b", .text "c"])⟩
    let blank : FilterError := .malformedField "tag" .blankElement
    (parse .standard kept = .ok note ∧ parse .standard listed = .ok tag) ∧
      parseAll .standard [kept, listed] = .ok (.group .and [note, tag] []) ∧
      parseAll .standard [kept, "tag:in:a, ,b", ":like:"] = .error blank ∧
        blank.kind = .invalidFormat := by
  intro kept listed note tag blank
  obtain ⟨accepted, _, _, all, refused, _, kinds⟩ := parse_grammar .standard
  have single : ¬NamesList "like" := by
    unfold NamesList
    decide +kernel
  have readable : Readable "note".toList "like".toList (some " at 9:30, or so ".toList) := by
    refine ⟨⟨'n', by decide +kernel, by decide⟩, ⟨'l', by decide +kernel, by decide⟩, ?_⟩
    intro name _ trims takes
    have same : name = "like" := trims_toList_iff.mp trims
    exact absurd (same ▸ takes) single
  have keptRead : parse .standard kept = .ok note := by
    refine (accepted kept note).mpr ⟨by decide +kernel, _, _, _,
      ⟨by decide +kernel, by decide +kernel, by decide +kernel⟩, readable, ?_⟩
    refine ⟨trims_toList_iff.mpr rfl, trims_toList_iff.mpr rfl, by simp, ?_, ?_⟩
    · exact fun _ _ _ takes => absurd takes single
    · rintro _ ⟨⟩ _ _
      rfl
  have listedRead : parse .standard listed = .ok tag := by
    subst listed
    exact parse_eq_ok_iff.mpr ⟨by decide +kernel, rfl⟩
  have blankRead : parse .standard "tag:in:a, ,b" = .error blank := rfl
  have failed : parseAll .standard [kept, "tag:in:a, ,b", ":like:"] = .error blank :=
    (refused _ _ (by decide)).mpr
      ⟨[kept], _, _, rfl, List.forall_mem_singleton.mpr ⟨note, keptRead⟩, blankRead⟩
  exact ⟨⟨keptRead, listedRead⟩,
    (all _ _).mpr ⟨by decide, _, .cons keptRead (.cons listedRead .nil), rfl⟩,
    failed, kinds _ _ failed⟩

end Sieve.Expression
