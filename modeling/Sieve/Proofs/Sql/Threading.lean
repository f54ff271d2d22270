import Sieve.Proofs.Sql.Numbering

/-! Fragments that share one list of parameters. Trees that are compiled one after another, each
from the number that the one before it hands back, give the parts of the tree that joins them. -/
namespace Sieve.Sql

def compileInTurn : List (Tree TypedFilter) → Nat → Except FilterError (List Fragment)
  | [], _ => .ok []
  | g :: gs, start => do
    let first ← compile g start
    let others ← compileInTurn gs first.next
    return first :: others

/-- Fragments under AND. Those that are empty are left out, and the parameters are those of all. -/
def conjunction (fragments : List Fragment) (start : Nat) : Fragment where
  sql := Text.joined " AND " ((fragments.map Fragment.parenthesized).filter (· ≠ ""))
  params := fragments.flatMap Fragment.params
  next := (fragments.getLast?.map Fragment.next).getD (max start 1)

def fragmentsInTurn : List (Tree Binding) → Nat → List Fragment
  | [], _ => []
  | b :: bs, first =>
    boundFragment b first :: fragmentsInTurn bs (boundFragment b first).next

theorem next_boundFragment (b : Tree Binding) (first : Nat) :
    (boundFragment b first).next = first + (b.leaves.filter Binding.hasPlace).length := by
  have numbers := (Binding.run_mapM_number b.leaves first).2
  rw [Tree.run_leaves] at numbers
  exact numbers

theorem max_next_boundFragment (b : Tree Binding) (start : Nat) :
    max (boundFragment b (max start 1)).next 1 =
      (boundFragment b (max start 1)).next := by
  have next := next_boundFragment b (max start 1)
  omega

/-- Trees are compiled one after another by binding all of them first. -/
theorem compileInTurn_eq (gs : List (Tree TypedFilter)) (start : Nat) :
    compileInTurn gs start =
      (Tree.mapAllM Binding.ofFilter gs).map fun bs => fragmentsInTurn bs (max start 1) := by
  induction gs generalizing start with
  | nil => rfl
  | cons g gs ih =>
    rw [compileInTurn, compile_eq, Tree.mapAllM]
    cases g.mapM Binding.ofFilter with
    | error e => rfl
    | ok b =>
      simp only [Except.map, bind, Except.bind, ih, max_next_boundFragment]
      cases Tree.mapAllM Binding.ofFilter gs with
      | error e => rfl
      | ok bs => rfl

theorem compile_group (gs : List (Tree TypedFilter)) (start : Nat) :
    compile (.group .and [] gs) start =
      (Tree.mapAllM Binding.ofFilter gs).map
        fun bs => boundFragment (.group .and [] bs) (max start 1) := by
  rw [compile_eq, Tree.mapM]
  cases Tree.mapAllM Binding.ofFilter gs with
  | error e => rfl
  | ok bs => rfl

/-- The nested texts of a group are the fragments in parentheses that are not empty. -/
theorem nestedTexts_run (bs : List (Tree Binding)) (first : Nat) :
    nestedTexts ((Tree.mapAllM Binding.number bs).run first).1 =
      ((fragmentsInTurn bs first).map Fragment.parenthesized).filter (· ≠ "") := by
  induction bs generalizing first with
  | nil => rfl
  | cons b bs ih =>
    have rest := ih (boundFragment b first).next
    rw [Tree.run_groups, nestedTexts, fragmentsInTurn, List.map_cons, List.filter_cons, ← rest]
    by_cases empty : (boundFragment b first).isEmpty
    · have text : (textOf ((b.mapM Binding.number).run first).1).isEmpty = true := empty
      have nothing : (boundFragment b first).parenthesized = "" := by
        rw [Fragment.parenthesized, if_pos empty]
      rw [if_pos text, nothing]
      rfl
    · have text : ¬(textOf ((b.mapM Binding.number).run first).1).isEmpty = true := empty
      have whole : (boundFragment b first).parenthesized =
          "(" ++ textOf ((b.mapM Binding.number).run first).1 ++ ")" := by
        rw [Fragment.parenthesized, if_neg empty]
        rfl
      have kept : (boundFragment b first).parenthesized ≠ "" := by
        simp [whole, String.append_eq_empty_iff]
      rw [if_neg text, if_pos (decide_eq_true kept), whole]
      rfl

theorem params_fragmentsInTurn (bs : List (Tree Binding)) (first : Nat) :
    (fragmentsInTurn bs first).flatMap Fragment.params =
      (Tree.leavesOfAll bs).filterMap Binding.parameter := by
  induction bs generalizing first with
  | nil => rfl
  | cons b bs ih =>
    rw [fragmentsInTurn, List.flatMap_cons, ih, Tree.leavesOfAll, List.filterMap_append]
    rfl

theorem next_fragmentsInTurn (bs : List (Tree Binding)) (first : Nat) :
    ((fragmentsInTurn bs first).getLast?.map Fragment.next).getD first =
      ((Tree.mapAllM Binding.number bs).run first).2 := by
  induction bs generalizing first with
  | nil => rfl
  | cons b bs ih =>
    have rest := ih (boundFragment b first).next
    rw [fragmentsInTurn, Tree.run_groups, List.getLast?_cons, Option.map_some, Option.getD_some]
    refine Eq.trans ?_ rest
    cases (fragmentsInTurn bs (boundFragment b first).next).getLast? <;> rfl

theorem boundFragment_and (bs : List (Tree Binding)) (start : Nat) :
    boundFragment (.group .and [] bs) (max start 1) =
      conjunction (fragmentsInTurn bs (max start 1)) start := by
  have texts := nestedTexts_run bs (max start 1)
  have params := params_fragmentsInTurn bs (max start 1)
  have next := next_fragmentsInTurn bs (max start 1)
  have run : ((Tree.group .and [] bs).mapM Binding.number).run (max start 1) =
      (.group .and [] ((Tree.mapAllM Binding.number bs).run (max start 1)).1,
        ((Tree.mapAllM Binding.number bs).run (max start 1)).2) := by
    rw [Tree.run_group]
    rfl
  unfold boundFragment conjunction
  rw [run, ← texts, params, next]
  rfl

theorem compile_of_inTurn {gs : List (Tree TypedFilter)} {start : Nat} {fragments : List Fragment}
    (compiled : compileInTurn gs start = .ok fragments) :
    compile (.group .and [] gs) start = .ok (conjunction fragments start) := by
  rw [compileInTurn_eq] at compiled
  obtain ⟨bs, made, rfl⟩ := map_eq_ok.mp compiled
  rw [compile_group, made]
  exact congrArg Except.ok (boundFragment_and bs start)

theorem compileInTurn_concat {gs : List (Tree TypedFilter)} {g : Tree TypedFilter} {start : Nat}
    {fragments : List Fragment} {last : Fragment}
    (compiled : compileInTurn gs start = .ok fragments)
    (added : compile g ((fragments.getLast?.map Fragment.next).getD start) = .ok last) :
    compileInTurn (gs ++ [g]) start = .ok (fragments ++ [last]) := by
  induction gs generalizing start fragments with
  | nil =>
    cases compiled
    have alone : compile g start = .ok last := added
    rw [List.nil_append, compileInTurn, alone]
    rfl
  | cons h gs ih =>
    obtain ⟨first, one, compiled⟩ := bind_eq_ok.mp compiled
    obtain ⟨others, rest, done⟩ := bind_eq_ok.mp compiled
    cases done
    have goesOn : (((first :: others).getLast?).map Fragment.next).getD start =
        (others.getLast?.map Fragment.next).getD first.next := by
      rw [List.getLast?_cons]
      cases others.getLast? <;> rfl
    rw [goesOn] at added
    exact bind_eq_ok.mpr ⟨first, one, bind_eq_ok.mpr ⟨_, ih rest added, rfl⟩⟩

/-- Compiling under AND is compiling in turn: the text joins the parts that are not empty, the
parameters are put one after another, the numbers go on from one part to the next, and the error is
that of the first part that fails. -/
theorem compile_and_eq_inTurn (gs : List (Tree TypedFilter)) (start : Nat) :
    compile (.group .and [] gs) start =
      (compileInTurn gs start).map fun fragments => conjunction fragments start := by
  rw [compile_group, compileInTurn_eq]
  cases Tree.mapAllM Binding.ofFilter gs with
  | error e => rfl
  | ok bs => exact congrArg Except.ok (boundFragment_and bs start)

example :
    let older : TypedFilter := ⟨"year", "year", .lt, some (.integer 1950)⟩
    let undated : TypedFilter := ⟨"year", "year", .isNull, none⟩
    let short : TypedFilter := ⟨"kind", "f.kind", .eq, some (.text "short")⟩
    (compileInTurn [.all [], .group .or [older, undated] [], .all [short]] 0).map
        (fun fragments => conjunction fragments 0) =
      .ok ⟨"(year < $1 OR year IS NULL) AND (f.kind = $2)", [.integer 1950, .text "short"], 3⟩ := rfl

end Sieve.Sql
