import Sieve.Proofs.Preparation
import Sieve.Proofs.Validation

/-! The two modes of checking. They differ in what they report, never in what they accept: one goes
on to the last filter and reports all errors in the order of the filters, the other reports the
first of these. -/
namespace Sieve

section Walks

variable {α β ε : Type}

theorem errorOf?_eq_some_iff {x : Except ε β} {e : ε} : errorOf? x = some e ↔ x = .error e := by
  cases x with
  | error other => simp [errorOf?]
  | ok b => simp [errorOf?]

def Tree.errors (f : α → Except ε β) (t : Tree α) : List ε :=
  t.leaves.filterMap fun a => errorOf? (f a)

/-- A walk over a list fails with the first error that it would meet if it went on. -/
theorem mapM_eq_error_iff {f : α → Except ε β} {ls : List α} {e : ε} :
    ls.mapM f = .error e ↔ (ls.filterMap fun a => errorOf? (f a)).head? = some e := by
  induction ls with
  | nil => simp [pure, Except.pure]
  | cons a ls ih =>
    rw [List.mapM_cons]
    cases here : f a with
    | error first => simp [here, errorOf?, bind, Except.bind]
    | ok b =>
      have kept : ((a :: ls).filterMap fun a => errorOf? (f a)) =
          ls.filterMap fun a => errorOf? (f a) := by
        simp [here, errorOf?]
      rw [kept, ← ih]
      cases ls.mapM f with
      | error later => simp [bind, Except.bind]
      | ok bs => simp [bind, Except.bind, pure, Except.pure]

theorem mapM_eq_error_iff_first {f : α → Except ε β} {ls : List α} {e : ε} :
    ls.mapM f = .error e ↔
      ∃ before a after, ls = before ++ a :: after ∧ (∀ b ∈ before, ∃ c, f b = .ok c) ∧
        f a = .error e := by
  have succeeds (b : α) : errorOf? (f b) = none ↔ ∃ c, f b = .ok c := by
    cases f b with
    | error other => simp [errorOf?]
    | ok c => simp [errorOf?]
  rw [mapM_eq_error_iff, List.head?_filterMap, List.findSome?_eq_some_iff]
  simp only [errorOf?_eq_some_iff, succeeds, and_comm]

theorem exists_of_mapM_eq_error {f : α → Except ε β} {ls : List α} {e : ε}
    (failed : ls.mapM f = .error e) : ∃ a ∈ ls, f a = .error e := by
  have inErrors := List.mem_of_head? (mapM_eq_error_iff.mp failed)
  obtain ⟨a, member, here⟩ := List.mem_filterMap.mp inErrors
  exact ⟨a, member, errorOf?_eq_some_iff.mp here⟩

theorem Tree.mapM_eq_error_iff {f : α → Except ε β} {t : Tree α} {e : ε} :
    t.mapM f = .error e ↔ (t.errors f).head? = some e := by
  rw [errors, ← Sieve.mapM_eq_error_iff, ← leaves_mapM]
  cases t.mapM f with
  | error other => simp [Functor.map, Except.map]
  | ok u => simp [Functor.map, Except.map]

theorem Tree.mapM_succeeds_iff {f : α → Except ε β} {t : Tree α} :
    (∃ u, t.mapM f = .ok u) ↔ t.errors f = [] := by
  rw [← List.head?_eq_none_iff]
  cases run : t.mapM f with
  | error e => simp [mapM_eq_error_iff.mp run]
  | ok u =>
    have none : (t.errors f).head? = none := by
      by_contra some
      obtain ⟨e, first⟩ := Option.ne_none_iff_exists'.mp some
      rw [mapM_eq_error_iff.mpr first] at run
      cases run
    simp [none]

theorem forall₂_errors (f : α → Except ε β) (ls : List α) :
    List.Forall₂ (fun a e => f a = .error e) (ls.filter fun a => (errorOf? (f a)).isSome)
      (ls.filterMap fun a => errorOf? (f a)) := by
  induction ls with
  | nil => exact .nil
  | cons a ls ih =>
    cases here : errorOf? (f a) with
    | none => simpa [here] using ih
    | some e => simpa [here] using ⟨errorOf?_eq_some_iff.mp here, ih⟩

end Walks

section Fields

theorem Coercion.eq_of_expect {e other : FilterError} {v : Option TypedValue}
    (refused : expect e v = .error other) : other = e := by
  cases v with
  | none => exact (Except.error.inj refused).symm
  | some v => cases refused

inductive Coercion.Mistyped (d : FieldDefinition) (field : String) : FilterError → Prop
  | type (expected shown : String) : Mistyped d field (.invalidType field expected shown)
  | uuid (shown : String) : Mistyped d field (.invalidUuid field shown)
  | date (shown : String) : Mistyped d field (.invalidDate field shown)
  | member (shown : String) : Mistyped d field (.invalidEnum field shown d.enumValues)

theorem Coercion.mistyped_of_scalar {d : FieldDefinition} {field : String} {v : RawValue}
    {e : FilterError} (refused : scalar d field v = .error e) : Mistyped d field e := by
  unfold scalar at refused
  split at refused
  next =>
    cases refused
    exact .type _ _
  next =>
    cases typed : d.fieldType <;> rw [typed] at refused
    case string => cases refused
    case number => exact eq_of_expect refused ▸ .type _ _
    case boolean => exact eq_of_expect refused ▸ .type _ _
    case uuid => exact eq_of_expect refused ▸ .uuid _
    case timestamp => exact eq_of_expect refused ▸ .date _
    case enumeration => exact eq_of_expect refused ▸ .member _

/-- Why the value of a filter is refused: it is missing, it is not the list that the operator takes, or it
or one of its items does not have the type of the field. -/
theorem Coercion.cases_of_value {d : FieldDefinition} {op : Operator} {field : String}
    {v : Option RawValue} {e : FilterError} (refused : value d op field v = .error e) :
    (op.takesValue = true ∧ v = none ∧ e = .missingValue field op) ∨
      (op.takesList = true ∧ (v.map RawValue.isList).getD false = false ∧
        e = .invalidIn field op.name) ∨ Mistyped d field e := by
  unfold value at refused
  split at refused
  next => cases refused
  next takesValue =>
    cases v with
    | none =>
      cases refused
      exact .inl ⟨by simpa using takesValue, rfl, rfl⟩
    | some v =>
      simp only at refused
      split at refused
      next takesList =>
        split at refused
        next items =>
          obtain ⟨item, _, there⟩ := exists_of_mapM_eq_error (map_eq_error.mp refused)
          exact .inr (.inr (mistyped_of_scalar there))
        next noList =>
          cases refused
          refine .inr (.inl ⟨takesList, ?_, rfl⟩)
          cases v with
          | list items => exact absurd rfl (noList items)
          | _ => rfl
      next => exact .inr (.inr (mistyped_of_scalar (map_eq_error.mp refused)))

theorem Coercion.field?_of_value {d : FieldDefinition} {op : Operator} {field : String}
    {v : Option RawValue} {e : FilterError} (refused : value d op field v = .error e) :
    e.field? = some field := by
  rcases cases_of_value refused with ⟨_, _, rfl⟩ | ⟨_, _, rfl⟩ | mistyped
  · rfl
  · rfl
  · cases mistyped <;> rfl

theorem Filter.field?_of_coerce {schema : Schema} {f : Filter} {e : FilterError}
    (refused : f.coerce schema = .error e) : e.field? = some f.field := by
  rcases bind_eq_error.mp refused with unresolved | ⟨⟨d, op⟩, _, refused⟩
  · exact (resolve_eq_error_iff.mp unresolved).field?_eq
  · rcases bind_eq_error.mp refused with untyped | ⟨_, _, done⟩
    · exact Coercion.field?_of_value untyped
    · cases done

theorem Filter.field?_of_validate {schema : Schema} {f : Filter} {e : FilterError}
    (refused : f.validate schema = .error e) : e.field? = some f.field :=
  (resolve_eq_error_iff.mp (map_eq_error.mp refused)).field?_eq

end Fields

section Reports

variable {β γ : Type}

def ValidationMode.reported (mode : ValidationMode) (errors : List FilterError) :
    List FilterError :=
  match mode with
  | .failFast => errors.take 1
  | .exhaustive => errors

/-- What a run over a tree reports in the two modes, where `check` is what it does at a filter. -/
structure Reporting (check : Filter → Except FilterError β) (tree : Tree Filter)
    (run : ValidationMode → Except (List FilterError) γ) : Prop where
  /-- One error for each filter that is refused, about the field of that filter. -/
  entries : List.Forall₂ (fun f e => check f = .error e ∧ e.field? = some f.field)
    (tree.leaves.filter fun f => (errorOf? (check f)).isSome) (tree.errors check)
  succeeds_iff : (∃ x, run .exhaustive = .ok x) ↔ tree.errors check = []
  exhaustive : ∀ errors, run .exhaustive = .error errors ↔
    errors = tree.errors check ∧ errors ≠ []
  failFast_ok : ∀ x, run .failFast = .ok x ↔ run .exhaustive = .ok x
  failFast : ∀ errors, run .failFast = .error errors ↔
    ∃ first others, run .exhaustive = .error (first :: others) ∧ errors = [first]

theorem Reporting.of_run {check : Filter → Except FilterError β} {tree : Tree Filter}
    {run : ValidationMode → Except (List FilterError) γ}
    (about : ∀ f e, check f = .error e → e.field? = some f.field)
    (accepts : ∀ x, run .failFast = .ok x ↔ run .exhaustive = .ok x)
    (refuses : ∀ mode errors, run mode = .error errors ↔
      errors = mode.reported (tree.errors check) ∧ errors ≠ []) : Reporting check tree run where
  entries := (forall₂_errors check tree.leaves).imp fun f e failed => ⟨failed, about f e failed⟩
  succeeds_iff := by
    cases done : run .exhaustive with
    | ok x =>
      have clean : tree.errors check = [] := by
        by_contra failing
        rw [(refuses .exhaustive _).mpr ⟨rfl, failing⟩] at done
        cases done
      simp [clean]
    | error errors =>
      obtain ⟨rfl, failing⟩ := (refuses .exhaustive errors).mp done
      have failing : tree.errors check ≠ [] := failing
      simp [failing]
  exhaustive := refuses .exhaustive
  failFast_ok := accepts
  failFast := by
    intro errors
    rw [refuses]
    constructor
    · rintro ⟨rfl, failing⟩
      cases all : tree.errors check with
      | nil => simp [all, ValidationMode.reported] at failing
      | cons first others =>
        exact ⟨first, others, (refuses .exhaustive _).mpr ⟨all.symm, by simp⟩, rfl⟩
    · rintro ⟨first, others, failed, rfl⟩
      have all : first :: others = tree.errors check := ((refuses .exhaustive _).mp failed).1
      rw [← all]
      exact ⟨rfl, by simp⟩

/-- A run that does the same under all settings where it succeeds, and gives reasons where it
fails. -/
structure Uniform (run : Settings → Except Report γ) : Prop where
  same : ∀ settings other x, run settings = .ok x → run other = .ok x
  reasons : ∀ settings report, run settings = .error report → report.errors ≠ []

end Reports

/-- However many errors were found before, going on adds those that the mode reports. -/
theorem Filter.errorsFrom_eq (schema : Schema) (mode : ValidationMode) (ls : List Filter)
    (errors : List FilterError) :
    errorsFrom schema mode ls errors =
      errors ++ mode.reported (ls.filterMap fun f => errorOf? (f.validate schema)) := by
  induction ls generalizing errors with
  | nil => cases mode <;> simp [errorsFrom, ValidationMode.reported]
  | cons f rest ih =>
    rw [errorsFrom]
    cases checked : f.validate schema with
    | ok _ => simp only [ih, List.filterMap_cons, checked, errorOf?]
    | error e =>
      cases mode with
      | failFast => simp [checked, errorOf?, ValidationMode.reported]
      | exhaustive => simp [ih, checked, errorOf?, ValidationMode.reported]

theorem ValidationMode.reported_eq_nil_iff {mode : ValidationMode} {errors : List FilterError} :
    mode.reported errors = [] ↔ errors = [] := by
  cases mode <;> simp [reported]

theorem error_eq_iff {γ : Type} {first : FilterError} {others errors : List FilterError} :
    (Except.error (first :: others) : Except (List FilterError) γ) = .error errors ↔
      errors = first :: others ∧ errors ≠ [] := by
  constructor
  · rintro ⟨⟩
    exact ⟨rfl, by simp⟩
  · rintro ⟨rfl, _⟩
    rfl

namespace Tree

variable {schema : Schema} {tree : Tree Filter} {typed : Tree TypedFilter} {mode : ValidationMode}
  {errors : List FilterError}

/-- In either mode, a tree is coerced as a walk would do it. -/
theorem coerce_eq_ok_iff :
    tree.coerce schema mode = .ok typed ↔ tree.mapM (Filter.coerce schema) = .ok typed := by
  refine ⟨mapM_of_coerce, fun done => ?_⟩
  cases mode with
  | failFast => rw [coerce, coerceFailFast, done]
  | exhaustive =>
    have clean : (tree.map (Filter.coerce schema)).leaves.filterMap errorOf? = [] := by
      rw [leaves_map, List.filterMap_map]
      exact mapM_succeeds_iff.mp ⟨typed, done⟩
    -- The second walk meets the results of the first, none of which is an error.
    have again : (tree.map (Filter.coerce schema)).mapM id = .ok typed := by
      rw [mapM_map, ← done]
      rfl
    rw [coerce, coerceExhaustive, clean]
    simp only [again]

theorem coerce_eq_error_iff :
    tree.coerce schema mode = .error errors ↔
      errors = mode.reported (tree.errors (Filter.coerce schema)) ∧ errors ≠ [] := by
  cases done : tree.mapM (Filter.coerce schema) with
  | ok typed =>
    have clean := mapM_succeeds_iff.mp ⟨typed, done⟩
    rw [coerce_eq_ok_iff.mpr done, clean]
    cases mode <;> simp [ValidationMode.reported]
  | error e =>
    obtain ⟨others, all⟩ := List.head?_eq_some_iff.mp (mapM_eq_error_iff.mp done)
    rw [all]
    cases mode with
    | failFast =>
      rw [coerce, coerceFailFast, done]
      exact error_eq_iff
    | exhaustive =>
      have found : (tree.map (Filter.coerce schema)).leaves.filterMap errorOf? = e :: others := by
        rw [leaves_map, List.filterMap_map]
        exact all
      rw [coerce, coerceExhaustive, found]
      exact error_eq_iff

theorem validate_eq : tree.validate schema mode =
    match mode.reported (tree.errors (Filter.validate schema)) with
    | [] => .ok ()
    | first :: others => .error (first :: others) := by
  rw [validate, Filter.errorsFrom_eq, List.nil_append, Tree.errors]
  cases mode.reported (tree.leaves.filterMap fun f => errorOf? (f.validate schema)) <;> rfl

theorem validate_eq_error_iff :
    tree.validate schema mode = .error errors ↔
      errors = mode.reported (tree.errors (Filter.validate schema)) ∧ errors ≠ [] := by
  rw [validate_eq]
  cases mode.reported (tree.errors (Filter.validate schema)) with
  | nil => simp
  | cons first others => exact error_eq_iff

theorem validate_eq_ok_iff :
    tree.validate schema mode = .ok () ↔ tree.errors (Filter.validate schema) = [] := by
  rw [← @ValidationMode.reported_eq_nil_iff mode, validate_eq]
  cases mode.reported (tree.errors (Filter.validate schema)) with
  | nil => simp
  | cons first others => simp

end Tree

namespace Settings

theorem uniform_validate (schema : Schema) (tree : Tree Filter) :
    Uniform fun settings => settings.validate schema tree where
  same := by
    intro settings other _ done
    exact refuse_eq_ok_iff.mpr
      (Tree.validate_eq_ok_iff.mpr (Tree.validate_eq_ok_iff.mp (refuse_eq_ok_iff.mp done)))
  reasons := by
    intro settings report refused
    obtain ⟨errors, failed, rfl⟩ := refuse_eq_error_iff.mp refused
    exact (Tree.validate_eq_error_iff.mp failed).2

theorem uniform_prepare (schema : Schema) (tree : Tree Filter) :
    Uniform fun settings => settings.prepare schema tree where
  same := by
    intro settings other typed done
    exact refuse_eq_ok_iff.mpr
      (Tree.coerce_eq_ok_iff.mpr (Tree.coerce_eq_ok_iff.mp (refuse_eq_ok_iff.mp done)))
  reasons := by
    intro settings report refused
    obtain ⟨errors, failed, rfl⟩ := refuse_eq_error_iff.mp refused
    exact (Tree.coerce_eq_error_iff.mp failed).2

theorem uniform_compile (schema : Schema) (tree : Tree Filter) (start : Nat) :
    Uniform fun settings => settings.compile schema tree start where
  same := by
    intro settings other fragment done
    obtain ⟨typed, prepared, compiled⟩ := bind_eq_ok.mp done
    exact bind_eq_ok.mpr ⟨typed, (uniform_prepare schema tree).same settings other typed prepared,
      refuseOne_eq_ok_iff.mpr (refuseOne_eq_ok_iff.mp compiled)⟩
  reasons := by
    intro settings report refused
    rcases bind_eq_error.mp refused with unprepared | ⟨typed, _, failed⟩
    · exact (uniform_prepare schema tree).reasons settings report unprepared
    · obtain ⟨e, _, rfl⟩ := refuseOne_eq_error_iff.mp failed
      exact List.cons_ne_nil e []

end Settings

/-- Both modes accept the same trees with the same results. Where a tree is refused, one reports the
errors of all filters that are refused, in the order of the filters, and the other reports the first
of these. -/
theorem modes_agree (schema : Schema) (tree : Tree Filter) :
    Reporting (Filter.coerce schema) tree (fun mode => tree.coerce schema mode) ∧
      Reporting (Filter.validate schema) tree (fun mode => tree.validate schema mode) ∧
      Uniform (fun settings => settings.validate schema tree) ∧
      Uniform (fun settings => settings.prepare schema tree) ∧
      ∀ start, Uniform fun settings => settings.compile schema tree start := by
  refine ⟨?_, ?_, Settings.uniform_validate schema tree, Settings.uniform_prepare schema tree,
    Settings.uniform_compile schema tree⟩
  · apply Reporting.of_run
    · intro f e refused
      exact Filter.field?_of_coerce refused
    · intro typed
      rw [Tree.coerce_eq_ok_iff, Tree.coerce_eq_ok_iff]
    · intro mode errors
      exact Tree.coerce_eq_error_iff
  · apply Reporting.of_run
    · intro f e refused
      exact Filter.field?_of_validate refused
    · intro _
      rw [Tree.validate_eq_ok_iff, Tree.validate_eq_ok_iff]
    · intro mode errors
      exact Tree.validate_eq_error_iff

end Sieve
