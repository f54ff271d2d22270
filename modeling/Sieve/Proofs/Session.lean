import Sieve.Proofs.Sql.Threading
import Sieve.Session

/-! What the steps of a session leave behind. The fragments that were joined since numbers were last
reset are one condition over one list of parameters. -/
namespace Sieve.Session

open Sql (Aligned Fragment compile compileInTurn conjunction)

variable {s after : Session} {step : Step} {outcome : Outcome}

def run (s : Session) (steps : List Step) : Session :=
  steps.foldl (fun s step => (s.advance step).1) s

theorem orFail_eq_ok_iff {ε α : Type} {failure : ε → Failure} {x : Except ε α} {a : α} :
    orFail failure x = .ok a ↔ x = .ok a := by
  cases x with
  | error e => simp [orFail]
  | ok a => simp [orFail]

/-- What a step can do to the joined fragments: nothing, or it drops them and numbers start anew, or
the fragment of a tree that was prepared is added. -/
theorem take_cases (taken : s.take step = .ok (after, outcome)) :
    (after.fragments = s.fragments ∧ after.params = s.params ∧ after.next = s.next) ∨
      (∃ start, after = { s with fragments := [], params := [], next := start }) ∨
      ∃ schema tree typed fragment, s.settings.prepare schema tree = .ok typed ∧
        compile typed s.next = .ok fragment ∧ after = s.append fragment := by
  cases step with
  | configure _ | schema _ _ | parse _ _ | combine _ _ _ | add _ _ =>
    obtain ⟨_, _, done⟩ := bind_eq_ok.mp taken
    cases done
    exact .inl ⟨rfl, rfl, rfl⟩
  | validate _ _ | select _ _ _ =>
    obtain ⟨_, _, taken⟩ := bind_eq_ok.mp taken
    obtain ⟨_, _, taken⟩ := bind_eq_ok.mp taken
    obtain ⟨_, _, done⟩ := bind_eq_ok.mp taken
    cases done
    exact .inl ⟨rfl, rfl, rfl⟩
  | compile _ _ =>
    obtain ⟨schema, _, taken⟩ := bind_eq_ok.mp taken
    obtain ⟨tree, _, taken⟩ := bind_eq_ok.mp taken
    obtain ⟨fragment, compiled, done⟩ := bind_eq_ok.mp taken
    cases done
    obtain ⟨typed, prepared, compiled⟩ := bind_eq_ok.mp (orFail_eq_ok_iff.mp compiled)
    exact .inr (.inr ⟨schema, tree, typed, fragment, prepared,
      Settings.refuseOne_eq_ok_iff.mp compiled, rfl⟩)
  | reset start =>
    cases taken
    exact .inr (.inl ⟨start, rfl⟩)

def Prepared (typed : Tree TypedFilter) : Prop :=
  ∃ (settings : Settings) (schema : Schema) (tree : Tree Filter),
    settings.prepare schema tree = .ok typed

/-- The fragments of a session are those of prepared trees that were compiled in turn. -/
structure Joins (s : Session) (first : Nat) (trees : List (Tree TypedFilter)) : Prop where
  prepared : ∀ t ∈ trees, Prepared t
  inTurn : ∃ fragments, compileInTurn trees first = .ok fragments ∧
    s.fragments = (fragments.map Fragment.parenthesized).filter (· ≠ "") ∧
    s.params = fragments.flatMap Fragment.params ∧
    s.next = (fragments.getLast?.map Fragment.next).getD first

theorem joins_reset (s : Session) (start : Nat) :
    Joins { s with fragments := [], params := [], next := start } start [] where
  prepared := nofun
  inTurn := ⟨[], rfl, rfl, rfl, rfl⟩

theorem fragments_append (s : Session) (f : Fragment) :
    (s.append f).fragments = s.fragments ++ [f.parenthesized].filter (· ≠ "") := by
  by_cases empty : f.isEmpty
  · simp [append, Fragment.parenthesized, empty]
  · have kept : "(" ++ f.sql ++ ")" ≠ "" := by simp [String.append_eq_empty_iff]
    simp [append, Fragment.parenthesized, empty, kept]

theorem Joins.append {first : Nat} {trees : List (Tree TypedFilter)} {typed : Tree TypedFilter}
    {fragment : Fragment} (joins : Joins s first trees) (prepared : Prepared typed)
    (compiled : compile typed s.next = .ok fragment) :
    Joins (s.append fragment) first (trees ++ [typed]) where
  prepared := by
    intro t member
    rcases List.mem_append.mp member with before | last
    · exact joins.prepared t before
    · rw [List.mem_singleton.mp last]
      exact prepared
  inTurn := by
    obtain ⟨fragments, before, texts, params, next⟩ := joins.inTurn
    rw [next] at compiled
    refine ⟨fragments ++ [fragment], Sql.compileInTurn_concat before compiled, ?_, ?_, ?_⟩
    · rw [fragments_append, texts, List.map_append, List.filter_append, List.map_singleton]
    · rw [List.flatMap_append, ← params, List.flatMap_singleton]
      rfl
    · rw [List.getLast?_concat]
      rfl

/-- A step that fails changes nothing, so no step parts the fragments from the trees. -/
theorem Joins.advance {first : Nat} {trees : List (Tree TypedFilter)} (joins : Joins s first trees)
    (step : Step) : ∃ first trees, Joins (s.advance step).1 first trees := by
  cases taken : s.take step with
  | error failure =>
    rw [Session.advance, taken]
    exact ⟨first, trees, joins⟩
  | ok result =>
    obtain ⟨after, outcome⟩ := result
    rw [Session.advance, taken]
    rcases take_cases taken with ⟨fragments, params, next⟩ | ⟨start, rfl⟩ |
      ⟨schema, tree, typed, fragment, prepared, compiled, rfl⟩
    · refine ⟨first, trees, joins.prepared, ?_⟩
      rw [fragments, params, next]
      exact joins.inTurn
    · exact ⟨start, [], joins_reset s start⟩
    · exact ⟨first, trees ++ [typed], joins.append ⟨_, schema, tree, prepared⟩ compiled⟩

theorem joins_run (steps : List Step) {first : Nat} {trees : List (Tree TypedFilter)}
    (joins : Joins s first trees) : ∃ first trees, Joins (s.run steps) first trees := by
  induction steps generalizing s first trees with
  | nil => exact ⟨first, trees, joins⟩
  | cons step steps ih =>
    obtain ⟨_, _, joins⟩ := joins.advance step
    exact ih joins

theorem columns_and_filled {trees : List (Tree TypedFilter)}
    (prepared : ∀ t ∈ trees, Prepared t) :
    ∀ f ∈ Tree.leavesOfAll trees, isColumn f.column = true ∧ f.IsFilled := by
  induction trees with
  | nil => nofun
  | cons t trees ih =>
    refine Tree.forall_leavesOfAll_cons.mpr ⟨fun f member => ?_, ih fun u rest =>
      prepared u (.tail _ rest)⟩
    obtain ⟨settings, schema, tree, made⟩ := prepared t List.mem_cons_self
    exact ⟨columns_of_prepare made f member, filled_of_prepare made f member⟩

/-- Whatever steps a session has taken, its fragments are the conjunction of prepared trees, compiled
as one tree: the places of all of them are numbered without a gap, in the order of the parameters. -/
theorem run_joins_fragments (steps : List Step) : ∃ first trees,
    (∀ t ∈ trees, Prepared t) ∧
    let s := start.run steps
    let whole : Fragment := ⟨s.sql, s.params, max s.next 1⟩
    compile (.group .and [] trees) first = .ok whole ∧
      Aligned (.group .and [] trees) (max first 1) whole := by
  have started : Joins start 1 [] := joins_reset start 1
  obtain ⟨first, trees, prepared, fragments, inTurn, texts, params, next⟩ :=
    joins_run steps started
  have compiled := Sql.compile_of_inTurn inTurn
  have sound := columns_and_filled prepared
  have inTree : (Tree.group .and [] trees).leaves = Tree.leavesOfAll trees := rfl
  have aligned : Aligned (.group .and [] trees) (max first 1) (conjunction fragments first) := by
    rw [Sql.eq_fragmentOf_of_compile compiled]
    exact Sql.aligned_fragmentOf (fun f member => (sound f (inTree ▸ member)).1)
      (fun f member => (sound f (inTree ▸ member)).2) _
  have sameNext : (conjunction fragments first).next = max (start.run steps).next 1 := by
    have positive := aligned.next
    rw [next]
    rw [conjunction] at positive ⊢
    cases last : fragments.getLast? with
    | none => rfl
    | some f =>
      simp only [last, Option.map_some, Option.getD_some] at positive ⊢
      omega
  have whole : conjunction fragments first =
      ⟨(start.run steps).sql, (start.run steps).params, max (start.run steps).next 1⟩ := by
    rw [← sameNext, sql, texts, params]
    rfl
  rw [whole] at compiled aligned
  exact ⟨first, trees, prepared, compiled, aligned⟩

end Sieve.Session
