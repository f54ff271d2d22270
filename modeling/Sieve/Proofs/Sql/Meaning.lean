import Sieve.Proofs.Sql.Numbering

/-! The meaning of compiled trees. The condition that the text of a tree spells is true in SQL for
the records that satisfy the tree, whatever the truth values of its tests that are not true. -/
namespace Sieve.Sql

namespace Formula

def valuesOf : List Formula → List Truth → List Truth
  | [], _ => []
  | f :: fs, values => f.value values :: valuesOf fs (values.drop f.tests.length)

theorem valuesOf_append (fs gs : List Formula) (values : List Truth) :
    valuesOf (fs ++ gs) values =
      valuesOf fs values ++ valuesOf gs (values.drop (fs.flatMap tests).length) := by
  induction fs generalizing values with
  | nil => rfl
  | cons f fs ih =>
    simp only [List.cons_append, valuesOf, ih, List.flatMap_cons, List.length_append,
      List.drop_drop]

theorem valuesOf_tests {ts : List Test} {values : List Truth}
    (lengths : values.length = ts.length) (rest : List Truth) :
    valuesOf (ts.map test) (values ++ rest) = values := by
  induction ts generalizing values with
  | nil =>
    rw [List.length_nil, List.length_eq_zero_iff] at lengths
    rw [lengths]
    rfl
  | cons t ts ih =>
    obtain ⟨v, values, rfl⟩ := List.exists_cons_of_length_eq_add_one lengths
    rw [List.map_cons, valuesOf]
    exact congrArg (v :: ·) (ih (Nat.succ.inj lengths))

theorem value_joined_and (fs : List Formula) (values : List Truth) :
    (joined .and fs).value values = .yes ↔ ∀ v ∈ valuesOf fs values, v = .yes := by
  induction fs generalizing values with
  | nil => simp [joined, value, valuesOf]
  | cons f fs ih =>
    cases fs with
    | nil => simp [joined, valuesOf]
    | cons g fs =>
      rw [joined, value, Truth.join_and_eq_yes, ih]
      simp only [valuesOf, List.forall_mem_cons]

theorem value_joined_or {fs : List Formula} (nonempty : fs ≠ []) (values : List Truth) :
    (joined .or fs).value values = .yes ↔ ∃ v ∈ valuesOf fs values, v = .yes := by
  induction fs generalizing values with
  | nil => exact absurd rfl nonempty
  | cons f fs ih =>
    cases fs with
    | nil => simp only [joined, valuesOf, List.mem_singleton, exists_eq_left]
    | cons g fs =>
      rw [joined, value, Truth.join_or_eq_yes, ih (List.cons_ne_nil _ _)]
      simp only [valuesOf, List.exists_mem_cons_iff]

end Formula

def Agree (values : List Truth) (answers : List Bool) : Prop :=
  List.Forall₂ (fun v b => v = .yes ↔ b = true) values answers

namespace Agree

theorem all {values : List Truth} {answers : List Bool} (agree : Agree values answers) :
    (∀ v ∈ values, v = .yes) ↔ answers.all id = true := by
  induction agree with
  | nil => simp
  | cons first _ ih => rw [List.forall_mem_cons, first, ih, List.all_cons, Bool.and_eq_true, id]

theorem any {values : List Truth} {answers : List Bool} (agree : Agree values answers) :
    (∃ v ∈ values, v = .yes) ↔ answers.any id = true := by
  induction agree with
  | nil => simp
  | cons first _ ih =>
    rw [List.exists_mem_cons_iff, first, ih, List.any_cons, Bool.or_eq_true, id]

end Agree

def combined (c : Connective) (answers : List Bool) : Bool :=
  answers.isEmpty || match c with
    | .and => answers.all id
    | .or => answers.any id

theorem holds_group {α : Type} (p : α → Bool) (c : Connective) (ls : List α)
    (gs : List (Tree α)) :
    (Tree.group c ls gs).holds p = combined c (ls.map p ++ Tree.resultsOf p gs) := by
  cases c <;> rfl

/-- Conditions under a connective are true if the group makes their answers true. -/
theorem value_joined {c : Connective} {fs : List Formula} {values : List Truth}
    {answers : List Bool} (agree : Agree (Formula.valuesOf fs values) answers) :
    (Formula.joined c fs).value values = .yes ↔ combined c answers = true := by
  cases fs with
  | nil =>
    cases agree
    simp [Formula.joined, Formula.value, combined]
  | cons f fs =>
    have some_answer : answers.isEmpty = false := by
      cases agree
      rfl
    cases c with
    | and =>
      rw [Formula.value_joined_and, agree.all]
      simp only [combined, some_answer, Bool.false_or]
    | or =>
      rw [Formula.value_joined_or (List.cons_ne_nil _ _), agree.any]
      simp only [combined, some_answer, Bool.false_or]

section Trees

variable {α : Type} (p : α → Bool)

/-- Values for leaves, true where the leaf holds. -/
def Assigned (values : List Truth) (ls : List α) : Prop :=
  List.Forall₂ (fun v a => v = .yes ↔ p a = true) values ls

theorem Assigned.agree {values : List Truth} {ls : List α} (assigned : Assigned p values ls) :
    Agree values (ls.map p) :=
  List.forall₂_map_right_iff.mpr assigned

theorem Assigned.split {values : List Truth} {ls ms : List α}
    (assigned : Assigned p values (ls ++ ms)) :
    ∃ first second, values = first ++ second ∧ Assigned p first ls ∧ Assigned p second ms := by
  refine ⟨values.take ls.length, values.drop ls.length, ?_, ?_, ?_⟩
  · exact (List.take_append_drop ls.length values).symm
  · exact List.forall₂_take_append _ _ _ assigned
  · exact List.forall₂_drop_append _ _ _ assigned

mutual

/-- The condition of a tree is true if the tree holds. The induction is on both trees at once; the
values that are left over belong to what stands behind the tree. -/
theorem value_formulaOf : {t : Tree α} → {u : Tree Condition} →
    Tree.Related (fun _ _ => True) t u → {values : List Truth} → Assigned p values t.leaves →
      (rest : List Truth) → ((formulaOf u).value (values ++ rest) = .yes ↔ t.holds p = true)
  | .group c ls gs, .group _ ms hs, ⟨rfl, own, groups⟩, values, assigned, rest => by
    obtain ⟨first, second, rfl, ofLeaves, ofGroups⟩ := Assigned.split p assigned
    have lengths : first.length = (ms.map Condition.test).length := by
      rw [ofLeaves.length_eq, own.length_eq, List.length_map]
    have tests : ms.map (fun m => Formula.test m.test) = (ms.map Condition.test).map .test := by
      rw [List.map_map]
      rfl
    rw [formulaOf, holds_group, tests]
    apply value_joined
    rw [Formula.valuesOf_append, List.append_assoc, Formula.valuesOf_tests lengths]
    apply List.rel_append ofLeaves.agree
    have count : (((ms.map Condition.test).map Formula.test).flatMap Formula.tests).length =
        first.length := by
      rw [lengths, List.flatMap_map]
      exact congrArg List.length (List.flatMap_singleton' _)
    rw [count, List.drop_left]
    exact values_nestedFormulas groups ofGroups rest

theorem values_nestedFormulas : {gs : List (Tree α)} → {hs : List (Tree Condition)} →
    Tree.AllRelated (fun _ _ => True) gs hs → {values : List Truth} →
      Assigned p values (Tree.leavesOfAll gs) → (rest : List Truth) →
      Agree (Formula.valuesOf (nestedFormulas hs) (values ++ rest)) (Tree.resultsOf p gs)
  | [], [], _, _, _, _ => .nil
  | g :: gs, h :: hs, ⟨related, others⟩, values, assigned, rest => by
    obtain ⟨first, second, rfl, ofFirst, ofOthers⟩ := Assigned.split p assigned
    have later := values_nestedFormulas others ofOthers rest
    rw [nestedFormulas, Tree.resultsOf, related.isEmpty_eq]
    split
    next empty =>
      rw [← related.isEmpty_eq, Tree.isEmpty_iff] at empty
      rw [empty] at ofFirst
      cases ofFirst
      exact later
    next filled =>
      have count : (formulaOf h).tests.length = first.length := by
        rw [tests_formulaOf, List.length_map, ofFirst.length_eq, related.leaves.length_eq]
      rw [Formula.valuesOf, List.append_assoc, count, List.drop_left]
      exact .cons (value_formulaOf related ofFirst (second ++ rest)) later

end

end Trees

/-- A prepared tree compiles to a condition whose tests are its filters, in order. Where the tests
are true for the filters that the record satisfies, the condition is true if the tree accepts it. -/
theorem compile_meaning {settings : Settings} {schema : Schema} {tree : Tree Filter}
    {typed : Tree TypedFilter} (prepared : settings.prepare schema tree = .ok typed) (start : Nat)
    (record : Record) {values : List Truth}
    (assigned : List.Forall₂ (fun v f => v = .yes ↔ f.accepts record = true) values typed.leaves) :
    ∃ fragment formula, compile typed start = .ok fragment ∧ read? fragment.sql = some formula ∧
      formula.tests.map (fun t => (t.column, t.keyword)) =
        typed.leaves.map (fun f => (f.column, keyword f.operator)) ∧
      (formula.value values = .yes ↔ typed.accepts record = true) := by
  have filled := filled_of_prepare prepared
  have related := (related_numbered typed (max start 1)).imp fun _ _ _ => trivial
  have meaning := value_formulaOf (fun f : TypedFilter => f.accepts record) related assigned []
  rw [List.append_nil] at meaning
  refine ⟨_, _, compile_of_filled filled start,
    read?_textOf (wellFormed_numbered (columns_of_prepare prepared) filled _), ?_, meaning⟩
  exact (tests_numbered filled _).1

/-- A group that is empty, a disjunction in a conjunction, and a test whose value is unknown. -/
theorem compile_meaning_nested :
    let fields : List (String × FieldDefinition) :=
      [("kind", .new "f.kind" .string), ("year", .new "year" .number)]
    let kind : Filter := ⟨"kind", "EQ", some (.text "short")⟩
    let year : Filter := ⟨"year", "gte", some (.text " 1999")⟩
    let tree := Tree.group .and [kind] [.all [], .group .or [year, kind] []]
    let typedKind : TypedFilter := ⟨"kind", "f.kind", .eq, some (.text "short")⟩
    let typedYear : TypedFilter := ⟨"year", "year", .gte, some (.integer 1999)⟩
    let typed := Tree.group .and [typedKind] [.all [], .group .or [typedYear, typedKind] []]
    let record : Record := [("kind", .string "short")]
    ∃ schema, Schema.build "films" fields = .ok schema ∧
      Settings.standard.prepare schema tree = .ok typed ∧
      ∃ fragment formula, compile typed 0 = .ok fragment ∧ read? fragment.sql = some formula ∧
        formula.tests.map (fun t => (t.column, t.keyword)) =
          typed.leaves.map (fun f => (f.column, keyword f.operator)) ∧
        (formula.value [.yes, .unknown, .yes] = .yes ↔ typed.accepts record = true) := by
  intro fields kind year tree typedKind typedYear typed record
  obtain ⟨schema, built, prepared⟩ : ∃ schema, Schema.build "films" fields = .ok schema ∧
      Settings.standard.prepare schema tree = .ok typed := by
    subst typed typedKind typedYear tree kind year fields
    exact ⟨_, rfl, rfl⟩
  have assigned : List.Forall₂ (fun v f => v = Truth.yes ↔ f.accepts record = true)
      [.yes, .unknown, .yes] typed.leaves := by
    decide +kernel
  exact ⟨schema, built, prepared, compile_meaning prepared 0 record assigned⟩

end Sieve.Sql
