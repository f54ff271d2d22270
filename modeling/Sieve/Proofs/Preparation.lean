import Sieve.Engine
import Sieve.Proofs.Coercion
import Sieve.Proofs.Schema.Column

/-! Trees that have been prepared. Every filter stands where it stood, refers to the column of its
field, and has a value of the form that its operator takes. -/
namespace Sieve

/-- There is a value where the operator takes one, and a list where it takes a list. -/
def TypedFilter.IsFilled (f : TypedFilter) : Prop :=
  f.operator.takesValue = true →
    ∃ v, f.value = some v ∧ (f.operator.takesList = true → ∃ items, v = .list items)

structure Filter.Becomes (schema : Schema) (f : Filter) (typed : TypedFilter) : Prop where
  definition : ∃ d, schema.field? f.field = some d ∧ typed.column = d.column
  field : typed.field = f.field
  operator : f.resolvedOperator = some typed.operator
  filled : typed.IsFilled

theorem TypedFilter.isFilled_of_fits {d : FieldDefinition} {f : TypedFilter}
    (fits : d.fits f.operator f.value = true) : f.IsFilled := by
  intro takesValue
  rcases FieldDefinition.fits_cases fits with ⟨null, _⟩ | ⟨_, _, items, given, _⟩ |
    ⟨_, single, x, given, _⟩
  · rw [null] at takesValue
    cases takesValue
  · exact ⟨_, given, fun _ => ⟨items, rfl⟩⟩
  · refine ⟨x, given, fun list => ?_⟩
    rw [single] at list
    cases list

theorem Filter.becomes_of_coerce {schema : Schema} {f : Filter} {typed : TypedFilter}
    (coerced : f.coerce schema = .ok typed) : f.Becomes schema typed := by
  obtain ⟨d, typedBy⟩ := typedBy_of_coerce coerced
  exact ⟨⟨d, typedBy.defined, typedBy.column⟩, typedBy.field, typedBy.operator,
    TypedFilter.isFilled_of_fits typedBy.fits⟩

theorem Tree.mapM_of_coerce {schema : Schema} {mode : ValidationMode} {tree : Tree Filter}
    {typed : Tree TypedFilter} (coerced : tree.coerce schema mode = .ok typed) :
    tree.mapM (Filter.coerce schema) = .ok typed := by
  cases mode with
  | failFast =>
    rw [coerce, coerceFailFast] at coerced
    split at coerced
    · cases coerced
    next done => rw [done, Except.ok.inj coerced]
  | exhaustive =>
    rw [coerce, coerceExhaustive] at coerced
    split at coerced
    · rw [mapM_map] at coerced
      split at coerced
      · cases coerced
      next done => rw [← Except.ok.inj coerced, ← done]; rfl
    · cases coerced

namespace Settings

variable {γ : Type} {settings : Settings} {report : Report}

theorem refuse_eq_ok_iff {x : Except (List FilterError) γ} {c : γ} :
    settings.refuse x = .ok c ↔ x = .ok c := by
  cases x <;> simp [refuse]

theorem refuse_eq_error_iff {x : Except (List FilterError) γ} :
    settings.refuse x = .error report ↔
      ∃ errors, x = .error errors ∧ report = Report.ofErrors settings.report errors := by
  cases x <;> simp [refuse, eq_comm]

theorem refuseOne_eq_ok_iff {x : Except FilterError γ} {c : γ} :
    settings.refuseOne x = .ok c ↔ x = .ok c := by
  cases x <;> simp [refuseOne]

theorem refuseOne_eq_error_iff {x : Except FilterError γ} :
    settings.refuseOne x = .error report ↔
      ∃ e, x = .error e ∧ report = Report.ofErrors settings.report [e] := by
  cases x <;> simp [refuseOne, eq_comm]

end Settings

theorem Settings.related_of_prepare {settings : Settings} {schema : Schema} {tree : Tree Filter}
    {typed : Tree TypedFilter} (prepared : settings.prepare schema tree = .ok typed) :
    tree.Related (Filter.Becomes schema) typed := by
  unfold prepare at prepared
  cases coerced : tree.coerce schema settings.validationMode with
  | error errors =>
    rw [coerced] at prepared
    cases prepared
  | ok other =>
    rw [coerced] at prepared
    cases prepared
    apply (Tree.related_of_mapM (Tree.mapM_of_coerce coerced)).imp
    intro f typed coerced
    exact Filter.becomes_of_coerce coerced

section Prepared

variable {settings : Settings} {schema : Schema} {tree : Tree Filter} {typed : Tree TypedFilter}

theorem filled_of_prepare (prepared : settings.prepare schema tree = .ok typed) :
    ∀ f ∈ typed.leaves, f.IsFilled := by
  intro f member
  obtain ⟨_, _, made⟩ := (Settings.related_of_prepare prepared).exists_leaf member
  exact made.filled

theorem columns_of_prepare (prepared : settings.prepare schema tree = .ok typed) :
    ∀ f ∈ typed.leaves, isColumn f.column = true := by
  intro f member
  obtain ⟨_, _, made⟩ := (Settings.related_of_prepare prepared).exists_leaf member
  obtain ⟨d, found, column⟩ := made.definition
  rw [column]
  exact Schema.isColumn_of_field? found

theorem prepare_of_compile {start : Nat} {fragment : Sql.Fragment}
    (compiled : settings.compile schema tree start = .ok fragment) :
    ∃ typed, settings.prepare schema tree = .ok typed ∧ Sql.compile typed start = .ok fragment := by
  obtain ⟨typed, prepared, compiled⟩ := bind_eq_ok.mp compiled
  refine ⟨typed, prepared, ?_⟩
  cases result : Sql.compile typed start with
  | error e =>
    rw [result] at compiled
    cases compiled
  | ok other =>
    rw [result] at compiled
    cases compiled
    rfl

end Prepared
end Sieve
