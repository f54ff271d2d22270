import Sieve.Proofs.Modes
import Sieve.Proofs.Sql.Numbering

/-! Typed filters. What becomes of a filter that is accepted has an operator of its field, and the
value that this operator takes, of the type of the field. Such filters can always be compiled. -/
namespace Sieve

namespace Settings

variable {settings : Settings} {schema : Schema} {tree : Tree Filter} {typed : Tree TypedFilter}

theorem typedBy_of_prepare (prepared : settings.prepare schema tree = .ok typed) :
    tree.Related (fun f t => ∃ d, f.TypedBy schema d t) typed := by
  have coerced := refuse_eq_ok_iff.mp prepared
  apply (Tree.related_of_mapM (Tree.mapM_of_coerce coerced)).imp
  intro f t coerced
  exact Filter.typedBy_of_coerce coerced

theorem compile_of_prepare (prepared : settings.prepare schema tree = .ok typed) (start : Nat) :
    Sql.compile typed start = .ok (Sql.fragmentOf typed (max start 1)) :=
  Sql.compile_of_filled (filled_of_prepare prepared) start

/-- Nothing but the preparation of a tree can fail when it is compiled. -/
theorem compile_eq_error_iff {start : Nat} {report : Report} :
    settings.compile schema tree start = .error report ↔
      settings.prepare schema tree = .error report := by
  unfold compile
  rw [bind_eq_error]
  constructor
  · rintro (unprepared | ⟨typed, prepared, failed⟩)
    · exact unprepared
    · rw [compile_of_prepare prepared] at failed
      cases failed
  · intro unprepared
    exact .inl unprepared

end Settings

/-- A prepared tree has the shape of the tree that came in, and every filter in it has the column of
its field, an operator that the field allows, and a value of the type of the field. It compiles from
every start, and a tree is refused when it is compiled if it is refused when it is prepared. -/
theorem prepare_typed (settings : Settings) (schema : Schema) (tree : Tree Filter) :
    (∀ typed, settings.prepare schema tree = .ok typed →
      tree.Related (fun f t => ∃ d, f.TypedBy schema d t) typed ∧
        (∀ t ∈ typed.leaves, ∃ binding, Sql.Binding.ofFilter t = .ok binding) ∧
        ∀ start, ∃ fragment, Sql.compile typed start = .ok fragment) ∧
      ∀ start report, settings.compile schema tree start = .error report ↔
        settings.prepare schema tree = .error report := by
  refine ⟨fun typed prepared => ⟨Settings.typedBy_of_prepare prepared, ?_, ?_⟩, fun start report =>
    Settings.compile_eq_error_iff⟩
  · intro t member
    exact ⟨_, Sql.ofFilter_of_filled (filled_of_prepare prepared t member)⟩
  · intro start
    exact ⟨_, Settings.compile_of_prepare prepared start⟩

/-- A list of values of an enumeration, one of them written as a number, a null check with a value
that is not looked at, and a number with blanks around it. -/
theorem prepare_typed_ratings :
    let fields : List (String × FieldDefinition) :=
      [("rating", .enumeration "f.rating" ["G", "12"]),
        ("year", (FieldDefinition.new "year" .number).withOperators [.lt, .isNull])]
    let rating : Filter := ⟨"rating", "IN", some (.list [.text "G", .number (.whole 12)])⟩
    let undated : Filter := ⟨"year", "isnull", some (.bool true)⟩
    let early : Filter := ⟨"year", "lt", some (.text " 1950 ")⟩
    let tree := Tree.group .and [rating] [.group .or [undated, early] []]
    let typedRating : TypedFilter :=
      ⟨"rating", "f.rating", .isIn, some (.list [.text "G", .text "12"])⟩
    let typedUndated : TypedFilter := ⟨"year", "year", .isNull, none⟩
    let typedEarly : TypedFilter := ⟨"year", "year", .lt, some (.integer 1950)⟩
    let typed := Tree.group .and [typedRating] [.group .or [typedUndated, typedEarly] []]
    ∃ schema, Schema.build "films" fields = .ok schema ∧
      Settings.standard.prepare schema tree = .ok typed ∧
      tree.Related (fun f t => ∃ d, f.TypedBy schema d t) typed ∧
      (∀ t ∈ typed.leaves, ∃ binding, Sql.Binding.ofFilter t = .ok binding) ∧
      ∀ start, ∃ fragment, Sql.compile typed start = .ok fragment := by
  intro fields rating undated early tree typedRating typedUndated typedEarly typed
  obtain ⟨schema, built, prepared⟩ : ∃ schema, Schema.build "films" fields = .ok schema ∧
      Settings.standard.prepare schema tree = .ok typed := by
    subst typed typedEarly typedUndated typedRating tree early undated rating fields
    exact ⟨_, rfl, rfl⟩
  exact ⟨schema, built, prepared, (prepare_typed Settings.standard schema tree).1 typed prepared⟩

end Sieve
