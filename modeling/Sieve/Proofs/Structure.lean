import Sieve.Proofs.Modes

/-! The structural half of preparing a tree. What checking a filter by its structure refuses, coercing
it refuses with the same error; what coercing refuses beyond that is refused for the value alone. -/
namespace Sieve

def ErrorKind.isStructural : ErrorKind → Bool
  | unknownField | invalidOperator | invalidIn | invalidFormat => true
  | invalidType | invalidUuid | invalidDate | invalidEnum => false

theorem ErrorKind.isStructural_eq_false_iff {kind : ErrorKind} :
    kind.isStructural = false ↔ kind ∈ [invalidType, invalidUuid, invalidDate, invalidEnum] := by
  cases kind <;> decide

theorem Filter.Misfit.isStructural {schema : Schema} {f : Filter} {e : FilterError}
    (misfit : f.Misfit schema e) : e.kind.isStructural = true := by
  cases misfit <;> rfl

/-- A value of the form that the operator takes is only refused for what it says. The checks of the form
that are made a second time never fail. -/
theorem Coercion.isStructural_of_value {d : FieldDefinition} {op : Operator} {field : String}
    {v : Option RawValue} {e : FilterError}
    (listed : op.takesList = true → (v.map RawValue.isList).getD false = true)
    (given : op.takesValue = true → v.isSome = true) (refused : value d op field v = .error e) :
    e.kind.isStructural = false := by
  rcases cases_of_value refused with ⟨takesValue, rfl, _⟩ | ⟨takesList, single, _⟩ | mistyped
  · cases given takesValue
  · rw [listed takesList] at single
    cases single
  · cases mistyped <;> rfl

namespace Filter

variable {schema : Schema} {f : Filter} {e : FilterError}

theorem validate_eq_error_iff : f.validate schema = .error e ↔ f.Misfit schema e :=
  map_eq_error.trans resolve_eq_error_iff

theorem coerce_eq_error_of_misfit (misfit : f.Misfit schema e) : f.coerce schema = .error e :=
  bind_eq_error.mpr (.inl (resolve_eq_error_iff.mpr misfit))

theorem misfit_of_coerce (refused : f.coerce schema = .error e) :
    f.Misfit schema e ∨ f.validate schema = .ok () ∧ e.kind.isStructural = false := by
  rcases bind_eq_error.mp refused with unresolved | ⟨⟨d, op⟩, resolved, refused⟩
  · exact .inl (resolve_eq_error_iff.mp unresolved)
  · rcases bind_eq_error.mp refused with untyped | ⟨_, _, done⟩
    · obtain ⟨_, _, _, listed, given⟩ := resolve_eq_ok_iff.mp resolved
      exact .inr ⟨map_eq_ok.mpr ⟨_, resolved, rfl⟩,
        Coercion.isStructural_of_value listed given untyped⟩
    · cases done

/-- The structural errors of coercing a filter are those of checking its structure. -/
theorem coerce_eq_error_iff_of_isStructural (structural : e.kind.isStructural = true) :
    f.coerce schema = .error e ↔ f.Misfit schema e := by
  refine ⟨fun refused => ?_, coerce_eq_error_of_misfit⟩
  rcases misfit_of_coerce refused with misfit | ⟨_, other⟩
  · exact misfit
  · rw [structural] at other
    cases other

theorem isStructural_of_coerce (valid : f.validate schema = .ok ())
    (refused : f.coerce schema = .error e) : e.kind.isStructural = false := by
  rcases misfit_of_coerce refused with misfit | ⟨_, other⟩
  · rw [validate_eq_error_iff.mpr misfit] at valid
    cases valid
  · exact other

theorem errorOf?_validate (schema : Schema) (f : Filter) :
    errorOf? (f.validate schema) =
      (errorOf? (f.coerce schema)).filter fun e => e.kind.isStructural := by
  -- A misfit is refused by both; where there is none, what coercing refuses is filtered out.
  cases checked : f.validate schema with
  | error e =>
    have misfit := validate_eq_error_iff.mp checked
    rw [coerce_eq_error_of_misfit misfit]
    simp [errorOf?, Option.filter, misfit.isStructural]
  | ok _ =>
    cases coerced : f.coerce schema with
    | error e => simp [errorOf?, Option.filter, isStructural_of_coerce checked coerced]
    | ok _ => rfl

end Filter

def RefusedFor {α : Type} (x : Except FilterError α) (kind : ErrorKind) : Prop :=
  ∃ e, x = .error e ∧ e.kind = kind

/-- When each fault in the structure of a filter is reported: where none of the faults before it is. -/
structure Filter.Diagnosed {α : Type} (schema : Schema) (f : Filter) (x : Except FilterError α) :
    Prop where
  unknownField : RefusedFor x .unknownField ↔ schema.field? f.field = none
  invalidOperator : RefusedFor x .invalidOperator ↔
    ∃ d, schema.field? f.field = some d ∧ ∀ op, ¬f.Uses schema d op
  invalidIn : RefusedFor x .invalidIn ↔
    ∃ d op, f.Uses schema d op ∧ op ∈ [.isIn, .notIn] ∧ ∀ items, f.value ≠ some (.list items)
  invalidFormat : RefusedFor x .invalidFormat ↔
    ∃ d op, f.Uses schema d op ∧ op ∉ [.isIn, .notIn, .isNull, .isNotNull] ∧ f.value = none

theorem Filter.Diagnosed.of_misfit {α : Type} {schema : Schema} {f : Filter}
    {x : Except FilterError α}
    (same : ∀ e, e.kind.isStructural = true → (x = .error e ↔ f.Misfit schema e)) :
    f.Diagnosed schema x := by
  have reported {kind : ErrorKind} (structural : kind.isStructural = true) :
      RefusedFor x kind ↔ ∃ e, f.Misfit schema e ∧ e.kind = kind := by
    refine exists_congr fun e => and_congr_left fun hasKind => same e ?_
    rw [hasKind, structural]
  refine ⟨(reported rfl).trans ⟨?_, ?_⟩, (reported rfl).trans ⟨?_, ?_⟩,
    (reported rfl).trans ⟨?_, ?_⟩, (reported rfl).trans ⟨?_, ?_⟩⟩
  · rintro ⟨_, ⟨undefined⟩ | _ | _ | _, ⟨⟩⟩
    exact undefined
  · exact fun undefined => ⟨_, .unknownField undefined, rfl⟩
  · rintro ⟨_, _ | ⟨defined, unused⟩ | _ | _, ⟨⟩⟩
    exact ⟨_, defined, unused⟩
  · rintro ⟨d, defined, unused⟩
    exact ⟨_, .invalidOperator defined unused, rfl⟩
  · rintro ⟨_, _ | _ | ⟨uses, takesList, single⟩ | _, ⟨⟩⟩
    exact ⟨_, _, uses, takesList, single⟩
  · rintro ⟨d, op, uses, takesList, single⟩
    exact ⟨_, .invalidIn uses takesList single, rfl⟩
  · rintro ⟨_, _ | _ | _ | ⟨uses, takesOne, missing⟩, ⟨⟩⟩
    exact ⟨_, _, uses, takesOne, missing⟩
  · rintro ⟨d, op, uses, takesOne, missing⟩
    exact ⟨_, .missingValue uses takesOne missing, rfl⟩

theorem Tree.errors_validate (schema : Schema) (tree : Tree Filter) :
    tree.errors (Filter.validate schema) =
      (tree.errors (Filter.coerce schema)).filter fun e => e.kind.isStructural := by
  rw [errors, errors, List.filter_filterMap]
  exact List.filterMap_congr fun f _ => Filter.errorOf?_validate schema f

namespace Settings

variable {settings : Settings} {schema : Schema} {tree : Tree Filter}

theorem validate_of_prepare {typed : Tree TypedFilter}
    (prepared : settings.prepare schema tree = .ok typed) :
    settings.validate schema tree = .ok () := by
  have coerced := Tree.coerce_eq_ok_iff.mp (refuse_eq_ok_iff.mp prepared)
  have clean : tree.errors (Filter.validate schema) = [] := by
    rw [Tree.errors_validate, Tree.mapM_succeeds_iff.mp ⟨typed, coerced⟩, List.filter_nil]
  exact refuse_eq_ok_iff.mpr (Tree.validate_eq_ok_iff.mpr clean)

/-- Where all errors are reported, those of the structure are some of those of preparing the tree. -/
theorem prepare_of_validate {report : Report} (all : settings.validationMode = .exhaustive)
    (refused : settings.validate schema tree = .error report) :
    ∃ full, settings.prepare schema tree = .error full ∧
      report.errors = full.errors.filter fun e => e.kind.isStructural := by
  obtain ⟨errors, failed, rfl⟩ := refuse_eq_error_iff.mp refused
  rw [all] at failed
  obtain ⟨found, failing⟩ := Tree.validate_eq_error_iff.mp failed
  have structural : errors =
      (tree.errors (Filter.coerce schema)).filter fun e => e.kind.isStructural :=
    found.trans (Tree.errors_validate schema tree)
  have others : tree.errors (Filter.coerce schema) ≠ [] := by
    intro none
    rw [none, List.filter_nil] at structural
    exact failing structural
  refine ⟨_, refuse_eq_error_iff.mpr ⟨tree.errors (Filter.coerce schema), ?_, rfl⟩, structural⟩
  rw [all]
  exact Tree.coerce_eq_error_iff.mpr ⟨rfl, others⟩

end Settings

/-- Checking the structure of a tree is the structural half of preparing it. A filter that the one refuses
the other refuses with the same error, and what only the other refuses is a value that does not have the
type of its field. Which error it is depends on the first thing that is wrong with the structure. -/
theorem validate_structural_half (schema : Schema) (tree : Tree Filter) :
    (∀ (f : Filter) e, f.validate schema = .error e → f.coerce schema = .error e) ∧
    (∀ (f : Filter) e, f.validate schema = .ok () → f.coerce schema = .error e →
      e.kind ∈ [.invalidType, .invalidUuid, .invalidDate, .invalidEnum]) ∧
    (∀ f : Filter, f.Diagnosed schema (f.validate schema) ∧ f.Diagnosed schema (f.coerce schema)) ∧
    (∀ (settings : Settings) typed, settings.prepare schema tree = .ok typed →
      settings.validate schema tree = .ok ()) ∧
    ∀ (settings : Settings) report, settings.validationMode = .exhaustive →
      settings.validate schema tree = .error report →
      ∃ full, settings.prepare schema tree = .error full ∧ report.errors.Sublist full.errors ∧
        report.errors = full.errors.filter fun e => e.kind.isStructural := by
  refine ⟨fun f e refused => ?_, fun f e valid refused => ?_, fun f => ⟨?_, ?_⟩,
    fun settings typed prepared => Settings.validate_of_prepare prepared,
    fun settings report all refused => ?_⟩
  · exact Filter.coerce_eq_error_of_misfit (Filter.validate_eq_error_iff.mp refused)
  · exact ErrorKind.isStructural_eq_false_iff.mp (Filter.isStructural_of_coerce valid refused)
  · exact .of_misfit fun e _ => Filter.validate_eq_error_iff
  · exact .of_misfit fun e structural => Filter.coerce_eq_error_iff_of_isStructural structural
  · obtain ⟨full, failed, half⟩ := Settings.prepare_of_validate all refused
    exact ⟨full, failed, half ▸ List.filter_sublist, half⟩

/-- One filter for each fault of structure, a list where there should be one value, and a null check
that has a value. -/
theorem validate_structural_half_films :
    let fields : List (String × FieldDefinition) :=
      [("rating", .enumeration "f.rating" ["G", "12"]),
        ("year", (FieldDefinition.new "year" .number).withOperators [.lt, .isIn, .isNull])]
    let settings := { Settings.standard with validationMode := .exhaustive }
    let years : Filter := ⟨"year", "lt", some (.list [.text "1950"])⟩
    let tree := Tree.group .and [⟨"Year", "lt", some (.text "1950")⟩, years]
      [.group .or [⟨"rating", "nin", some (.list [])⟩, ⟨"year", "ISNULL", some (.bool true)⟩]
        [.group .and [⟨"year", "In", some (.text "1950")⟩, ⟨"year", "LT", none⟩] []]]
    let faults : List FilterError := [.unknownField "Year" "films", .invalidOperator "rating" "nin",
      .invalidIn "year" "in", .missingValue "year" .lt]
    ∃ schema full, Schema.build "films" fields = .ok schema ∧
      settings.validate schema tree = .error (Report.ofErrors settings.report faults) ∧
      settings.prepare schema tree = .error full ∧ faults.Sublist full.errors ∧
      ∃ e, years.validate schema = .ok () ∧ years.coerce schema = .error e ∧
        e.kind ∈ [.invalidType, .invalidUuid, .invalidDate, .invalidEnum] := by
  intro fields settings years tree faults
  obtain ⟨schema, built, refused, valid, e, untyped⟩ : ∃ schema,
      Schema.build "films" fields = .ok schema ∧
      settings.validate schema tree = .error (Report.ofErrors settings.report faults) ∧
      years.validate schema = .ok () ∧ ∃ e, years.coerce schema = .error e := by
    subst faults tree years settings fields
    exact ⟨_, rfl, rfl, rfl, _, rfl⟩
  obtain ⟨_, values, _, _, halves⟩ := validate_structural_half schema tree
  obtain ⟨full, failed, half, _⟩ := halves settings _ rfl refused
  exact ⟨schema, full, built, refused, failed, half, e, valid, untyped, values years e valid untyped⟩

end Sieve
