import Sieve.Validation

/-! What can be wrong with the structure of a filter: every fault that checking it reports, and when. -/
namespace Sieve.Filter

variable {schema : Schema} {f : Filter} {d : FieldDefinition} {op : Operator} {e : FilterError}

structure Uses (schema : Schema) (f : Filter) (d : FieldDefinition) (op : Operator) : Prop where
  defined : schema.field? f.field = some d
  allowed : op ∈ d.operators
  named : Text.sameIgnoringCase op.name f.operator = true

/-- What can be wrong with the structure of a filter, each fault where there is none before it. -/
inductive Misfit (schema : Schema) (f : Filter) : FilterError → Prop
  | unknownField (undefined : schema.field? f.field = none) :
      Misfit schema f (.unknownField f.field schema.resource)
  | invalidOperator {d : FieldDefinition} (defined : schema.field? f.field = some d)
      (unused : ∀ op, ¬Uses schema f d op) : Misfit schema f (.invalidOperator f.field f.operator)
  | invalidIn {d : FieldDefinition} {op : Operator} (uses : Uses schema f d op)
      (takesList : op ∈ [.isIn, .notIn]) (single : ∀ items, f.value ≠ some (.list items)) :
      Misfit schema f (.invalidIn f.field op.name)
  | missingValue {d : FieldDefinition} {op : Operator} (uses : Uses schema f d op)
      (takesOne : op ∉ [.isIn, .notIn, .isNull, .isNotNull]) (missing : f.value = none) :
      Misfit schema f (.missingValue f.field op)

theorem uses_iff (defined : schema.field? f.field = some d) :
    f.Uses schema d op ↔ f.resolvedOperator.filter d.allows = some op := by
  rw [Option.filter_eq_some_iff, FieldDefinition.allows, List.contains_iff_mem, resolvedOperator,
    Operator.ofName?_eq_some_iff]
  exact ⟨fun uses => ⟨uses.named, uses.allowed⟩, fun given => ⟨defined, given.2, given.1⟩⟩

theorem takesList_iff : op.takesList = true ↔ op ∈ [.isIn, .notIn] := by
  cases op <;> decide

theorem takesOne_iff :
    op.takesValue = true ∧ op.takesList = false ↔ op ∉ [.isIn, .notIn, .isNull, .isNotNull] := by
  cases op <;> decide

theorem isList_eq_false_iff {v : Option RawValue} :
    (v.map RawValue.isList).getD false = false ↔ ∀ items, v ≠ some (.list items) := by
  rcases v with _ | v
  · simp
  · cases v <;> simp [RawValue.isList]

/-- A filter is refused for the first thing that is wrong with it. -/
theorem resolve_eq_error_iff : f.resolve schema = .error e ↔ f.Misfit schema e := by
  constructor
  · intro refused
    unfold resolve at refused
    split at refused
    next undefined =>
      cases refused
      exact .unknownField undefined
    next d defined =>
      split at refused
      next unused =>
        cases refused
        refine .invalidOperator defined fun op uses => ?_
        rw [(uses_iff defined).mp uses] at unused
        cases unused
      next op found =>
        have uses := (uses_iff defined).mpr found
        split at refused
        next single =>
          cases refused
          rw [Bool.and_eq_true, Bool.not_eq_true', isList_eq_false_iff] at single
          exact .invalidIn uses (takesList_iff.mp single.1) single.2
        next listed =>
          split at refused
          next missing =>
            cases refused
            rw [Bool.and_eq_true, Option.isNone_iff_eq_none] at missing
            -- An operator that takes a list would have been refused before, as there is no value.
            have takesNoList : op.takesList = false := by simpa [missing.2] using listed
            exact .missingValue uses (takesOne_iff.mp ⟨missing.1, takesNoList⟩) missing.2
          next => cases refused
  · intro misfit
    unfold resolve
    cases misfit with
    | unknownField undefined => rw [undefined]
    | invalidOperator defined unused =>
      have none : f.resolvedOperator.filter _ = none :=
        Option.eq_none_iff_forall_ne_some.mpr fun op found => unused op ((uses_iff defined).mpr found)
      rw [defined]
      simp only [none]
    | invalidIn uses takesList single =>
      rw [uses.defined]
      simp only [(uses_iff uses.defined).mp uses, takesList_iff.mpr takesList,
        isList_eq_false_iff.mpr single, Bool.not_false, Bool.and_self, if_true]
    | missingValue uses takesOne missing =>
      obtain ⟨takesValue, takesNoList⟩ := takesOne_iff.mpr takesOne
      rw [uses.defined]
      simp only [(uses_iff uses.defined).mp uses, takesValue, takesNoList, missing]
      rfl

theorem Misfit.field?_eq (misfit : f.Misfit schema e) : e.field? = some f.field := by
  cases misfit <;> rfl

end Sieve.Filter
