import Sieve.Proofs.Preparation
import Sieve.Proofs.Sql.Reading
import Sieve.Proofs.Tree.Calls

/-! The places of a fragment. They are numbered without a gap in the order of the filters that take
a value, and each stands beside the column and the keyword of its filter. -/
namespace Sieve

namespace TypedFilter

/-- What goes to the place of a filter: its value, or for a substring test the pattern made of it. -/
def parameter? (f : TypedFilter) : Option TypedValue :=
  if f.operator.isNullCheck then none
  else if f.operator = .contains then
    f.value.map fun v => .text (Pattern.containingText v.display)
  else f.value

theorem isSome_parameter? {f : TypedFilter} (filled : f.IsFilled) :
    f.parameter?.isSome = f.operator.takesValue := by
  unfold parameter?
  by_cases null : f.operator.isNullCheck
  · simp only [null, if_true, Option.isSome_none, Operator.takesValue, Bool.not_true]
  · obtain ⟨v, given, _⟩ := filled (by simp only [Operator.takesValue, null, Bool.not_false])
    simp only [null, given, Bool.false_eq_true, if_false, Operator.takesValue, Bool.not_false]
    split <;> rfl

end TypedFilter

namespace Sql

def bindingOf (f : TypedFilter) : Binding :=
  ⟨f.column, f.operator, f.parameter?⟩

theorem ofFilter_of_filled {f : TypedFilter} (filled : f.IsFilled) :
    Binding.ofFilter f = .ok (bindingOf f) := by
  unfold Binding.ofFilter bindingOf TypedFilter.parameter?
  by_cases null : f.operator.isNullCheck
  · simp only [null, if_true]
  · obtain ⟨v, given, list⟩ := filled (by simp only [Operator.takesValue, null, Bool.not_false])
    by_cases takesList : f.operator.takesList
    · obtain ⟨items, rfl⟩ := list takesList
      have other : f.operator ≠ .contains := by
        intro same
        rw [same] at takesList
        cases takesList
      simp only [null, given, takesList, other, Bool.false_eq_true, if_false, if_true]
    · by_cases contains : f.operator = .contains
      · simp only [given, contains]
        rfl
      · simp only [null, given, takesList, contains, Bool.false_eq_true, if_false]

theorem filled_of_ofFilter {f : TypedFilter} {b : Binding} (made : Binding.ofFilter f = .ok b) :
    f.IsFilled := by
  intro takesValue
  have null : f.operator.isNullCheck = false := by
    simpa only [Operator.takesValue, Bool.not_eq_true'] using takesValue
  unfold Binding.ofFilter at made
  rw [null] at made
  cases given : f.value with
  | none => simp [given] at made
  | some v =>
    refine ⟨v, rfl, fun takesList => ?_⟩
    cases v with
    | list items => exact ⟨items, rfl⟩
    | _ => simp [given, takesList] at made

theorem filled_of_compile {tree : Tree TypedFilter} {start : Nat} {fragment : Fragment}
    (compiled : compile tree start = .ok fragment) : ∀ f ∈ tree.leaves, f.IsFilled := by
  obtain ⟨bindings, made, _⟩ := map_eq_ok.mp compiled
  intro f member
  obtain ⟨b, _, made⟩ := (Tree.related_of_mapM made).flip.exists_leaf member
  exact filled_of_ofFilter made

namespace Binding

/-- The condition with the next number as its place, if it has one. The number is all that a
condition takes from what was emitted before it. -/
def number (b : Binding) : StateM Nat Condition := fun next =>
  (⟨b.column, b.operator, b.parameter.map fun _ => next⟩,
    next + if b.parameter.isSome then 1 else 0)

theorem run_emit (b : Binding) (params : Params) :
    b.emit.run params =
      ((b.number.run params.next).1,
        ⟨params.values ++ b.parameter.toList, (b.number.run params.next).2⟩) := by
  obtain ⟨column, op, parameter⟩ := b
  cases parameter with
  | none => simp only [Option.toList_none, List.append_nil]; rfl
  | some value => rfl

/-- Calls that number conditions are calls that emit them, whatever values are there already. -/
theorem calls_emit {bs : List Binding} {cs : List Condition} {first last : Nat}
    (calls : Tree.Calls number first bs cs last) (values : List TypedValue) :
    Tree.Calls emit ⟨values, first⟩ bs cs ⟨values ++ bs.filterMap parameter, last⟩ := by
  induction calls generalizing values with
  | nil s =>
    rw [List.filterMap_nil, List.append_nil]
    exact .nil _
  | @cons b c bs cs first next last call _ ih =>
    have emitted : b.emit.run ⟨values, first⟩ = (c, ⟨values ++ b.parameter.toList, next⟩) := by
      rw [run_emit, call]
    have later := ih (values ++ b.parameter.toList)
    have whole : b.parameter.toList ++ bs.filterMap parameter = (b :: bs).filterMap parameter := by
      rw [List.filterMap_cons]
      cases b.parameter <;> rfl
    rw [List.append_assoc, whole] at later
    exact .cons emitted later

theorem run_mapM_emit (bindings : Tree Binding) (params : Params) :
    (bindings.mapM emit).run params =
      (((bindings.mapM number).run params.next).1,
        ⟨params.values ++ bindings.leaves.filterMap parameter,
          ((bindings.mapM number).run params.next).2⟩) := by
  obtain ⟨shape, calls⟩ := Tree.run_eq_iff.mp
    (Eq.refl ((bindings.mapM number).run params.next))
  exact Tree.run_eq_iff.mpr ⟨shape, calls_emit calls params.values⟩

end Binding

def boundFragment (bindings : Tree Binding) (first : Nat) : Fragment :=
  ⟨textOf ((bindings.mapM Binding.number).run first).1,
    bindings.leaves.filterMap Binding.parameter, ((bindings.mapM Binding.number).run first).2⟩

/-- The parameters are those of the conditions in order, wherever the numbers start. -/
theorem ofBindings_startingAt (bindings : Tree Binding) (start : Nat) :
    Fragment.ofBindings bindings (.startingAt start) = boundFragment bindings (max start 1) := by
  rw [Fragment.ofBindings, Binding.run_mapM_emit]
  rfl

theorem compile_eq (tree : Tree TypedFilter) (start : Nat) :
    compile tree start =
      (tree.mapM Binding.ofFilter).map fun bindings => boundFragment bindings (max start 1) := by
  simp only [compile, ofBindings_startingAt]

def numbered (tree : Tree TypedFilter) (first : Nat) : Tree Condition × Nat :=
  ((tree.map bindingOf).mapM Binding.number).run first

def fragmentOf (tree : Tree TypedFilter) (first : Nat) : Fragment :=
  ⟨textOf (numbered tree first).1, tree.leaves.filterMap TypedFilter.parameter?,
    (numbered tree first).2⟩

theorem compile_of_filled {tree : Tree TypedFilter} (filled : ∀ f ∈ tree.leaves, f.IsFilled)
    (start : Nat) : compile tree start = .ok (fragmentOf tree (max start 1)) := by
  have made : ∀ f ∈ tree.leaves, Binding.ofFilter f = .ok (bindingOf f) := by
    intro f member
    exact ofFilter_of_filled (filled f member)
  rw [compile_eq, Tree.mapM_of_forall tree made, Except.map, boundFragment, Tree.leaves_map,
    List.filterMap_map]
  rfl

theorem eq_fragmentOf_of_compile {tree : Tree TypedFilter} {start : Nat} {fragment : Fragment}
    (compiled : compile tree start = .ok fragment) : fragment = fragmentOf tree (max start 1) := by
  rw [compile_of_filled (filled_of_compile compiled)] at compiled
  exact (Except.ok.inj compiled).symm

/-- The values that were recorded on the way are those of the filters in order, from any start. -/
theorem params_of_compile {tree : Tree TypedFilter} {start : Nat} {fragment : Fragment}
    (compiled : compile tree start = .ok fragment) :
    fragment.params = tree.leaves.filterMap TypedFilter.parameter? := by
  rw [eq_fragmentOf_of_compile compiled, fragmentOf]

namespace Binding

theorem run_number (b : Binding) (next : Nat) :
    b.number.run next =
      (⟨b.column, b.operator, b.parameter.map fun _ => next⟩,
        next + if b.parameter.isSome then 1 else 0) :=
  rfl

def hasPlace (b : Binding) : Bool :=
  b.parameter.isSome

theorem run_mapM_number (bindings : List Binding) (first : Nat) :
    ((bindings.mapM number).run first).1.filter (fun c => c.place.isSome) =
        ((bindings.filter hasPlace).zipIdx first).map
          (fun b => ⟨b.1.column, b.1.operator, some b.2⟩) ∧
      ((bindings.mapM number).run first).2 = first + (bindings.filter hasPlace).length := by
  induction bindings generalizing first with
  | nil => exact ⟨rfl, rfl⟩
  | cons b bindings ih =>
    rw [Tree.run_cons, run_number]
    cases given : b.parameter with
    | none =>
      have none : hasPlace b = false := by rw [hasPlace, given]; rfl
      simpa only [List.filter_cons, none, Option.map_none, Option.isSome_none, Bool.false_eq_true,
        if_false, Nat.add_zero] using ih first
    | some v =>
      have some : hasPlace b = true := by rw [hasPlace, given]; rfl
      obtain ⟨places, next⟩ := ih (first + 1)
      simp only [List.filter_cons, some, Option.map_some, Option.isSome_some, if_true,
        List.zipIdx_cons, List.map_cons, List.length_cons, places, next, true_and]
      omega

end Binding

theorem related_numbered (tree : Tree TypedFilter) (first : Nat) :
    Tree.Related (fun f c => c.column = f.column ∧ c.operator = f.operator ∧
      c.place.isSome = f.parameter?.isSome) tree (numbered tree first).1 := by
  rw [numbered, Tree.mapM_map]
  apply Tree.related_run
  intro f next
  rw [Binding.run_number]
  exact ⟨rfl, rfl, Option.isSome_map⟩

theorem leaves_numbered (tree : Tree TypedFilter) (first : Nat) :
    ((tree.leaves.map bindingOf).mapM Binding.number).run first =
      ((numbered tree first).1.leaves, (numbered tree first).2) := by
  rw [← Tree.leaves_map, Tree.run_leaves]
  rfl

def asking (tree : Tree TypedFilter) : List TypedFilter :=
  tree.leaves.filter fun f => f.operator.takesValue

theorem filter_hasPlace {ls : List TypedFilter} (filled : ∀ f ∈ ls, f.IsFilled) :
    (ls.map bindingOf).filter Binding.hasPlace =
      (ls.filter fun f => f.operator.takesValue).map bindingOf := by
  rw [List.filter_map]
  congr 1
  apply List.filter_congr
  intro f member
  exact TypedFilter.isSome_parameter? (filled f member)

/-- Numbers are given to the filters that take a value, from the first on and without a gap. -/
theorem places_numbered {tree : Tree TypedFilter} (filled : ∀ f ∈ tree.leaves, f.IsFilled)
    (first : Nat) :
    (numbered tree first).1.leaves.filter (fun c => c.place.isSome) =
        ((asking tree).zipIdx first).map (fun f => ⟨f.1.column, f.1.operator, some f.2⟩) ∧
      (numbered tree first).2 = first + (asking tree).length := by
  have numbers := Binding.run_mapM_number (tree.leaves.map bindingOf) first
  rw [leaves_numbered, filter_hasPlace filled, List.length_map, List.zipIdx_map, List.map_map]
    at numbers
  exact numbers

theorem soundColumns_numbered {tree : Tree TypedFilter}
    (columns : ∀ f ∈ tree.leaves, isColumn f.column = true) (first : Nat) :
    SoundColumns (numbered tree first).1.leaves := by
  intro c member
  obtain ⟨f, inTree, column, _⟩ := (related_numbered tree first).exists_leaf member
  rw [column]
  exact columns f inTree

theorem wellFormed_numbered {tree : Tree TypedFilter}
    (columns : ∀ f ∈ tree.leaves, isColumn f.column = true)
    (filled : ∀ f ∈ tree.leaves, f.IsFilled) (first : Nat) :
    ∀ c ∈ (numbered tree first).1.leaves, c.IsWellFormed := by
  intro c member
  obtain ⟨f, inTree, _, op, place⟩ := (related_numbered tree first).exists_leaf member
  constructor
  · exact soundColumns_numbered columns first c member
  · rw [place, op]
    exact TypedFilter.isSome_parameter? (filled f inTree)

theorem numbered_add (tree : Tree TypedFilter) (first amount : Nat) :
    numbered tree (first + amount) =
      ((numbered tree first).1.map (Condition.raise amount),
        (numbered tree first).2 + amount) := by
  apply Tree.run_move (· + amount)
  intro b next
  rw [Binding.run_number, Binding.run_number]
  cases b.parameter with
  | none => rfl
  | some v =>
    have next : next + amount + 1 = next + 1 + amount := by omega
    simp only [Condition.raise, Option.map_some, Option.isSome_some, if_true, next]

theorem places_intercalate (c : Connective) : (parts : List (List Token)) →
    ([Token.word c.keyword].intercalate parts).filterMap Token.place? =
      parts.flatMap (List.filterMap Token.place?)
  | [] => rfl
  | [part] => by rw [List.intercalate_singleton, List.flatMap_singleton]
  | part :: next :: others => by
    rw [List.intercalate_cons_cons, List.filterMap_append, List.filterMap_append,
      places_intercalate c (next :: others), List.flatMap_cons]
    simp only [List.filterMap_cons, Token.place?, List.filterMap_nil, List.append_nil,
      List.flatMap_cons]

theorem places_tokens (c : Condition) :
    c.tokens.filterMap Token.place? = c.place.toList := by
  have none : (tokens (keyword c.operator)).filterMap Token.place? = [] := by
    rw [tokens_keyword]
    cases c.operator <;> rfl
  rw [Condition.tokens, List.cons_append, List.filterMap_cons, List.filterMap_append, none,
    Condition.placeTokens]
  cases c.place with
  | none => rfl
  | some n => dsimp only [Token.place?]; split <;> rfl

mutual

theorem places_tokensOf :
    (t : Tree Condition) → (tokensOf t).filterMap Token.place? = t.leaves.filterMap Condition.place
  | .group c conditions groups => by
    have own : (conditions.map Condition.tokens).flatMap (List.filterMap Token.place?) =
        conditions.filterMap Condition.place := by
      simp only [List.flatMap_map, places_tokens]
      exact (List.filterMap_eq_flatMap_toList ..).symm
    rw [tokensOf, places_intercalate, List.flatMap_append, own, places_nestedTokens groups,
      Tree.leaves, List.filterMap_append]

theorem places_nestedTokens :
    (gs : List (Tree Condition)) → (nestedTokens gs).flatMap (List.filterMap Token.place?) =
      (Tree.leavesOfAll gs).filterMap Condition.place
  | [] => rfl
  | g :: gs => by
    rw [nestedTokens, Tree.leavesOfAll, List.filterMap_append, ← places_nestedTokens gs]
    split
    next empty => rw [(Tree.isEmpty_iff g).mp empty, List.filterMap_nil, List.nil_append]
    next =>
      rw [List.flatMap_cons, List.filterMap_append, List.filterMap_append, places_tokensOf g]
      simp only [List.filterMap_cons, Token.place?, List.filterMap_nil, List.append_nil,
        List.nil_append]

end

theorem filterMap_place (conditions : List Condition) :
    (conditions.filter fun c => c.place.isSome).filterMap Condition.place =
      conditions.filterMap Condition.place := by
  rw [List.filterMap_filter]
  apply List.filterMap_congr
  intro c _
  cases c.place <;> rfl

/-- The places are numbered from the first on, each once and in order. -/
theorem places_text_numbered {tree : Tree TypedFilter}
    (columns : ∀ f ∈ tree.leaves, isColumn f.column = true)
    (filled : ∀ f ∈ tree.leaves, f.IsFilled) (first : Nat) :
    places (textOf (numbered tree first).1) = List.range' first (asking tree).length := by
  have sound := soundColumns_numbered columns first
  have numbers : ((asking tree).zipIdx first).map Prod.snd =
      List.range' first (asking tree).length :=
    List.zipIdx_map_snd ..
  calc
    places (textOf (numbered tree first).1)
      = (numbered tree first).1.leaves.filterMap Condition.place := by
        rw [places, tokens_textOf _ sound, places_tokensOf]
    _ = ((numbered tree first).1.leaves.filter fun c => c.place.isSome).filterMap
          Condition.place := (filterMap_place _).symm
    _ = ((asking tree).zipIdx first).map Prod.snd := by
        rw [(places_numbered filled first).1, List.filterMap_map, ← List.filterMap_eq_map]
        rfl
    _ = List.range' first (asking tree).length := numbers

theorem map_some_parameters {ls : List TypedFilter} (filled : ∀ f ∈ ls, f.IsFilled) :
    (ls.filterMap TypedFilter.parameter?).map some =
      (ls.filter fun f => f.operator.takesValue).map TypedFilter.parameter? := by
  induction ls with
  | nil => rfl
  | cons f ls ih =>
    have rest := ih fun g member => filled g (.tail _ member)
    have first := TypedFilter.isSome_parameter? (filled f List.mem_cons_self)
    rw [List.filterMap_cons, List.filter_cons, ← first]
    cases given : f.parameter? with
    | none => simpa using rest
    | some v => simpa [given] using rest

theorem tests_numbered {tree : Tree TypedFilter} (filled : ∀ f ∈ tree.leaves, f.IsFilled)
    (first : Nat) :
    (formulaOf (numbered tree first).1).tests.map (fun t => (t.column, t.keyword)) =
        tree.leaves.map (fun f => (f.column, keyword f.operator)) ∧
      (formulaOf (numbered tree first).1).tests.filter (fun t => t.place.isSome) =
        ((asking tree).zipIdx first).map
          (fun f => ⟨f.1.column, keyword f.1.operator, some f.2⟩) := by
  rw [tests_formulaOf]
  constructor
  · have leaves := (related_numbered tree first).leaves
    rw [List.map_map, ← List.forall₂_eq_eq_eq, List.forall₂_map_left_iff,
      List.forall₂_map_right_iff]
    apply leaves.flip.imp
    rintro c f ⟨column, op, _⟩
    simp only [Function.comp, Condition.test, column, op]
  · have numbers := congrArg (List.map Condition.test) (places_numbered filled first).1
    rw [List.map_map] at numbers
    rw [List.filter_map]
    exact numbers

/-- How the places of a fragment, its parameters and the filters of a tree go together. -/
structure Aligned (tree : Tree TypedFilter) (first : Nat) (fragment : Fragment) : Prop where
  /-- There are as many parameters as filters that take a value. -/
  count : fragment.params.length = (asking tree).length
  /-- The parameters stand in the order of these filters. -/
  params : fragment.params.map some = (asking tree).map TypedFilter.parameter?
  /-- From left to right, the places have the numbers from the first on. -/
  places : places fragment.sql = List.range' first fragment.params.length
  next : fragment.next = first + fragment.params.length
  /-- Every place stands beside the column and the keyword of its filter. -/
  beside : ∃ formula, read? fragment.sql = some formula ∧
    formula.tests.map (fun t => (t.column, t.keyword)) =
      tree.leaves.map (fun f => (f.column, keyword f.operator)) ∧
    formula.tests.filter (fun t => t.place.isSome) =
      ((asking tree).zipIdx first).map fun f => ⟨f.1.column, keyword f.1.operator, some f.2⟩

theorem aligned_fragmentOf {tree : Tree TypedFilter}
    (columns : ∀ f ∈ tree.leaves, isColumn f.column = true)
    (filled : ∀ f ∈ tree.leaves, f.IsFilled) (first : Nat) :
    Aligned tree first (fragmentOf tree first) := by
  have params := map_some_parameters filled
  have count : (fragmentOf tree first).params.length = (asking tree).length := by
    have lengths := congrArg List.length params
    rwa [List.length_map, List.length_map] at lengths
  constructor
  · exact count
  · exact params
  · rw [count]
    exact places_text_numbered columns filled first
  · rw [count]
    exact (places_numbered filled first).2
  · exact ⟨_, read?_textOf (wellFormed_numbered columns filled first), tests_numbered filled first⟩

theorem aligned_of_prepare {settings : Settings} {schema : Schema} {tree : Tree Filter}
    {typed : Tree TypedFilter} (prepared : settings.prepare schema tree = .ok typed)
    (first : Nat) : Aligned typed first (fragmentOf typed first) :=
  aligned_fragmentOf (columns_of_prepare prepared) (filled_of_prepare prepared) first

theorem text_numbered_add {tree : Tree TypedFilter}
    (columns : ∀ f ∈ tree.leaves, isColumn f.column = true) (first amount : Nat) :
    textOf (numbered tree (first + amount)).1 = raised amount (textOf (numbered tree first).1) := by
  have sound := soundColumns_numbered columns first
  rw [numbered_add, raised, raised_textOf amount _ sound, String.ofList_toList]

/-- Places, parameters and filters stay aligned from any start on; the start has no part in the
parameters, and in the text it only raises the numbers of the places. -/
theorem compile_aligned {tree : Tree TypedFilter} {start : Nat} {fragment : Fragment}
    (columns : ∀ f ∈ tree.leaves, isColumn f.column = true)
    (compiled : compile tree start = .ok fragment) :
    Aligned tree (max start 1) fragment ∧
      ∃ fromOne, compile tree 1 = .ok fromOne ∧ fragment.params = fromOne.params ∧
        fragment.sql = raised (max start 1 - 1) fromOne.sql := by
  have filled := filled_of_compile compiled
  have fromOne := compile_of_filled filled 1
  have sameParams := (params_of_compile compiled).trans (params_of_compile fromOne).symm
  have first : 1 + (max start 1 - 1) = max start 1 := by omega
  have text := text_numbered_add columns 1 (max start 1 - 1)
  rw [first] at text
  rw [eq_fragmentOf_of_compile compiled] at sameParams ⊢
  exact ⟨aligned_fragmentOf columns filled _, _, fromOne, sameParams, text⟩

/-- A pattern and a list on either side of the tenth place, with a null check between them. -/
theorem compile_aligned_nine :
    let contains : TypedFilter := ⟨"name", "t.name", .contains, some (.text "50%")⟩
    let missing : TypedFilter := ⟨"gone", "gone", .isNull, none⟩
    let anyOf : TypedFilter := ⟨"kind", "kind", .isIn, some (.list [.integer 1, .integer 2])⟩
    let tree := Tree.group .or [contains, missing] [.all [], .all [anyOf]]
    let fragment : Fragment := ⟨"t.name ILIKE $9 OR gone IS NULL OR (kind = ANY($10))",
      [.text "%50\\%%", .list [.integer 1, .integer 2]], 11⟩
    compile tree 9 = .ok fragment ∧ Aligned tree 9 fragment ∧
      ∃ fromOne, compile tree 1 = .ok fromOne ∧ fragment.params = fromOne.params ∧
        fragment.sql = raised 8 fromOne.sql := by
  intro contains missing anyOf tree fragment
  have columns : ∀ f ∈ tree.leaves, isColumn f.column = true := by decide +kernel
  have compiled : compile tree 9 = .ok fragment := rfl
  exact ⟨compiled, compile_aligned columns compiled⟩

end Sql
end Sieve
