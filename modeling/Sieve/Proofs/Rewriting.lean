import Sieve.Proofs.Sql.Meaning
import Sieve.Proofs.Tree.Rewriting

/-! What rewriting by the laws of AND and OR leaves alone: the records that a tree selects, and where
groups without a leaf are dropped the fragment of SQL as well. -/
namespace Sieve

open Sql (combined holds_group)

section Answers

variable {c : Connective}

theorem combined_perm {answers others : List Bool} (perm : answers.Perm others) :
    combined c answers = combined c others := by
  have empty : answers.isEmpty = others.isEmpty := by
    rw [Bool.eq_iff_iff, List.isEmpty_iff_length_eq_zero, List.isEmpty_iff_length_eq_zero,
      perm.length_eq]
  cases c with
  | and => simp only [combined, empty, perm.all_eq]
  | or => simp only [combined, empty, perm.any_eq]

/-- What a group under the same connective makes of its answers can be put apart again, if there is
any. -/
theorem combined_nested {inner : List Bool} (nonempty : inner ≠ []) (before after : List Bool) :
    combined c (before ++ combined c inner :: after) = combined c (before ++ inner ++ after) := by
  have someInner : inner.isEmpty = false := List.isEmpty_eq_false_iff.mpr nonempty
  have somePart (answer : Bool) : (before ++ answer :: after).isEmpty = false := by
    simp [List.isEmpty_eq_false_iff]
  have someAnswer : (before ++ inner ++ after).isEmpty = false := by
    simp [List.isEmpty_eq_false_iff, nonempty]
  cases c with
  | and => simp only [combined, someInner, somePart, someAnswer, List.all_append, List.all_cons,
      Bool.false_or, id, Bool.and_assoc]
  | or => simp only [combined, someInner, somePart, someAnswer, List.any_append, List.any_cons,
      Bool.false_or, id, Bool.or_assoc]

end Answers

namespace Tree

variable {α : Type} {p : α → Bool}

theorem resultsOf_append (p : α → Bool) (gs hs : List (Tree α)) :
    resultsOf p (gs ++ hs) = resultsOf p gs ++ resultsOf p hs := by
  induction gs with
  | nil => rfl
  | cons g gs ih =>
    rw [List.cons_append, resultsOf, resultsOf, ih]
    split
    · rfl
    · rw [List.cons_append]

theorem resultsOf_eq (p : α → Bool) (gs : List (Tree α)) :
    resultsOf p gs = (gs.filter fun g => !g.isEmpty).map (holds p) := by
  induction gs with
  | nil => rfl
  | cons g gs ih =>
    rw [resultsOf, ih, List.filter_cons]
    cases g.isEmpty <;> rfl

theorem isEmpty_group_iff {c : Connective} {ls : List α} {gs : List (Tree α)} :
    (group c ls gs).isEmpty = true ↔ ls = [] ∧ ∀ g ∈ gs, g.isEmpty = true := by
  rw [isEmpty, Bool.and_eq_true, List.isEmpty_iff, areEmpty_eq_all, List.all_eq_true]

theorem answers_eq_nil_iff (p : α → Bool) {c : Connective} {ls : List α} {gs : List (Tree α)} :
    ls.map p ++ resultsOf p gs = [] ↔ (group c ls gs).isEmpty = true := by
  rw [isEmpty_group_iff, List.append_eq_nil_iff, List.map_eq_nil_iff, resultsOf_eq,
    List.map_eq_nil_iff, List.filter_eq_nil_iff]
  simp only [Bool.not_eq_true', Bool.not_eq_false]

/-- Trees that ask for something both or neither, and hold for the same. -/
structure Alike (p : α → Bool) (t u : Tree α) : Prop where
  isEmpty : u.isEmpty = t.isEmpty
  holds : u.holds p = t.holds p

theorem Alike.trans {t u v : Tree α} (first : Alike p t u) (second : Alike p u v) : Alike p t v where
  isEmpty := second.isEmpty.trans first.isEmpty
  holds := second.holds.trans first.holds

theorem Drops.alike {t u : Tree α} (step : Drops t u) : Alike p t u := by
  cases step with
  | mk c ls gs hs empty =>
    constructor
    · rw [Bool.eq_iff_iff, isEmpty_group_iff, isEmpty_group_iff]
      simp only [List.forall_mem_append, List.forall_mem_cons, empty, true_and]
    · rw [holds_group, holds_group, resultsOf_append, resultsOf_append, resultsOf, if_pos empty]

theorem Permutes.alike {t u : Tree α} (step : Permutes t u) : Alike p t u := by
  cases step with
  | @mk c ls ms gs hs own nested =>
    constructor
    · have noLeaf : ls = [] ↔ ms = [] := by
        rw [← List.length_eq_zero_iff, own.length_eq, List.length_eq_zero_iff]
      rw [Bool.eq_iff_iff, isEmpty_group_iff, isEmpty_group_iff, noLeaf]
      simp only [nested.mem_iff]
    · rw [holds_group, holds_group, resultsOf_eq, resultsOf_eq]
      exact (combined_perm ((own.map p).append ((nested.filter _).map (holds p)))).symm

theorem Merges.alike {t u : Tree α} (step : Merges t u) : Alike p t u := by
  cases step with
  | mk c ls ms gs inner hs =>
    constructor
    · rw [Bool.eq_iff_iff, isEmpty_group_iff, isEmpty_group_iff]
      simp only [List.forall_mem_append, List.forall_mem_cons, isEmpty_group_iff,
        List.append_eq_nil_iff]
      tauto
    · have moved : ((ls ++ ms).map p ++ resultsOf p (gs ++ inner ++ hs)).Perm
          (ls.map p ++ resultsOf p gs ++ (ms.map p ++ resultsOf p inner) ++ resultsOf p hs) := by
        simp only [List.map_append, resultsOf_append, List.append_assoc]
        apply List.Perm.append_left
        simp only [← List.append_assoc]
        apply List.Perm.append_right
        apply List.Perm.append_right
        exact List.perm_append_comm
      rw [holds_group, holds_group, combined_perm moved, resultsOf_append, resultsOf]
      split
      next empty =>
        rw [(answers_eq_nil_iff p).mpr empty, List.append_nil, List.append_assoc]
      next filled =>
        have answers := mt (answers_eq_nil_iff p).mp filled
        have apart := combined_nested (c := c) answers (ls.map p ++ resultsOf p gs) (resultsOf p hs)
        rw [holds_group, ← apart, List.append_assoc]

theorem Law.alike {t u : Tree α} (step : Law t u) : Alike p t u := by
  cases step with
  | drops step => exact step.alike
  | permutes step => exact step.alike
  | merges step => exact step.alike

/-- What a law does not change, it does not change inside a tree either. -/
theorem Inside.alike {law : Tree α → Tree α → Prop} (ofLaw : ∀ t u, law t u → Alike p t u)
    {t u : Tree α} (step : Inside law t u) : Alike p t u := by
  induction step with
  | here step => exact ofLaw _ _ step
  | nested c ls gs hs _ ih =>
    constructor
    · rw [Bool.eq_iff_iff, isEmpty_group_iff, isEmpty_group_iff]
      simp only [List.forall_mem_append, List.forall_mem_cons, ih.isEmpty]
    · rw [holds_group, holds_group, resultsOf_append, resultsOf_append, resultsOf, resultsOf,
        ih.isEmpty, ih.holds]

theorem Rewritten.alike {t u : Tree α} (rewritten : Rewritten Law t u) : Alike p t u := by
  induction rewritten with
  | refl => exact ⟨rfl, rfl⟩
  | tail _ step ih => exact ih.trans (step.alike fun _ _ step => step.alike)

theorem accepts_of_rewritten {tree other : Tree TypedFilter} (rewritten : Rewritten Law tree other)
    (record : Record) : other.accepts record = tree.accepts record :=
  rewritten.alike.holds

end Tree

namespace Sql

mutual

theorem textOf_pruned : (t : Tree Condition) → textOf t.pruned = textOf t
  | .group c conditions groups => by
    rw [Tree.pruned, textOf, textOf, nestedTexts_prunedAll groups]

theorem nestedTexts_prunedAll :
    (gs : List (Tree Condition)) → nestedTexts (Tree.prunedAll gs) = nestedTexts gs
  | [] => rfl
  | g :: gs => by
    rw [Tree.prunedAll, nestedTexts_cons]
    split
    next => exact nestedTexts_prunedAll gs
    next filled =>
      rw [nestedTexts_cons, Tree.isEmpty_pruned, if_neg filled, textOf_pruned g,
        nestedTexts_prunedAll gs]

end

theorem numbered_pruned (tree : Tree TypedFilter) (first : Nat) :
    numbered tree.pruned first = ((numbered tree first).1.pruned, (numbered tree first).2) := by
  have whole : (tree.mapM fun f => (bindingOf f).number).run first = numbered tree first := by
    rw [numbered, Tree.mapM_map]
  rw [numbered, Tree.mapM_map]
  exact Tree.run_pruned whole

theorem fragmentOf_pruned (tree : Tree TypedFilter) (first : Nat) :
    fragmentOf tree.pruned first = fragmentOf tree first := by
  rw [fragmentOf, fragmentOf, numbered_pruned, textOf_pruned, Tree.leaves_pruned]

/-- Whether a tree can be compiled, and with which error it cannot, is told by its leaves. -/
theorem compile_eq_error_iff_leaves {tree : Tree TypedFilter} {start : Nat} {e : FilterError} :
    compile tree start = .error e ↔ tree.leaves.mapM Binding.ofFilter = .error e := by
  rw [compile, map_eq_error, Tree.mapM_eq_error_iff, Tree.errors, ← mapM_eq_error_iff]

theorem compile_pruned (tree : Tree TypedFilter) (start : Nat) :
    compile tree.pruned start = compile tree start := by
  cases compiled : compile tree start with
  | error e =>
    rw [compile_eq_error_iff_leaves, Tree.leaves_pruned]
    exact compile_eq_error_iff_leaves.mp compiled
  | ok fragment =>
    have filled := filled_of_compile compiled
    rw [← compiled, compile_of_filled filled, ← fragmentOf_pruned]
    exact compile_of_filled (Tree.leaves_pruned tree ▸ filled) start

theorem compile_of_drops {tree other : Tree TypedFilter}
    (rewritten : Tree.Rewritten Tree.Drops tree other) (start : Nat) :
    compile other start = compile tree start := by
  rw [← compile_pruned, Tree.pruned_of_rewritten_drops rewritten, compile_pruned]

theorem sql_fragmentOf_eq_empty {tree : Tree TypedFilter} {first : Nat} :
    (fragmentOf tree first).sql = "" ↔ tree.leafCount = 0 := by
  rw [fragmentOf, textOf_eq_empty, ← (related_numbered tree first).isEmpty_eq, Tree.isEmpty_iff,
    Tree.leafCount_eq_length, List.length_eq_zero_iff]

theorem compile_empty_iff {tree : Tree TypedFilter} {start : Nat} :
    (∃ fragment, compile tree start = .ok fragment ∧ fragment.sql = "") ↔ tree.leafCount = 0 := by
  constructor
  · rintro ⟨fragment, compiled, empty⟩
    rw [eq_fragmentOf_of_compile compiled] at empty
    exact sql_fragmentOf_eq_empty.mp empty
  · intro noLeaf
    have filled : ∀ f ∈ tree.leaves, f.IsFilled := by
      rw [Tree.leafCount_eq_length, List.length_eq_zero_iff] at noLeaf
      simp [noLeaf]
    exact ⟨_, compile_of_filled filled start, sql_fragmentOf_eq_empty.mpr noLeaf⟩

end Sql

/-- The laws of AND and OR, used at any groups of a tree and any number of times, change neither the
records that it selects nor their order. Where only groups without a leaf are dropped, as all of them
can be, the fragment of SQL is the same as well, or the error is. The fragment is empty if there is no
leaf, and only then. -/
theorem rewriting_keeps_meaning (tree other : Tree TypedFilter) :
    (Tree.Rewritten Tree.Law tree other →
      (∀ record, other.accepts record = tree.accepts record) ∧
        ∀ records, other.select records = tree.select records) ∧
    (Tree.Rewritten Tree.Drops tree other →
      Tree.Rewritten Tree.Law tree other ∧
        ∀ start, Sql.compile other start = Sql.compile tree start) ∧
    (Tree.Rewritten Tree.Drops tree tree.pruned ∧
      ∀ g, Tree.Within g tree.pruned → g.leafCount ≠ 0) ∧
    ∀ start, (∃ fragment, Sql.compile tree start = .ok fragment ∧ fragment.sql = "") ↔
      tree.leafCount = 0 := by
  refine ⟨?_, ?_, ⟨Tree.rewritten_pruned tree, ?_⟩, fun start => Sql.compile_empty_iff⟩
  · intro rewritten
    have accepts := Tree.accepts_of_rewritten rewritten
    refine ⟨accepts, fun records => ?_⟩
    rw [Tree.select, Tree.select, funext accepts]
  · intro rewritten
    exact ⟨rewritten.imp fun _ _ step => .drops step, Sql.compile_of_drops rewritten⟩
  · intro g within noLeaf
    have filled := Tree.isEmpty_of_within_pruned tree within
    rw [Tree.leafCount_eq_length, List.length_eq_zero_iff, ← Tree.isEmpty_iff, filled] at noLeaf
    cases noLeaf

/-- Two groups that are empty only together, a conjunction in a conjunction, and parts in another
order. -/
theorem rewriting_keeps_meaning_films :
    let recent : TypedFilter := ⟨"year", "f.year", .gte, some (.integer 1950)⟩
    let short : TypedFilter := ⟨"kind", "f.kind", .eq, some (.text "short")⟩
    let untitled : TypedFilter := ⟨"title", "f.title", .isNull, none⟩
    let choice := Tree.group .or [untitled, short] []
    let tree := Tree.group .and [recent] [.group .or [] [.all []], .group .and [short] [choice]]
    let plain := Tree.group .and [recent] [.group .and [short] [choice]]
    let other := Tree.group .and [short, recent] [.group .or [short, untitled] []]
    let record : Record := [("kind", .string "short"), ("year", .number (.whole 1962))]
    let fragment : Sql.Fragment :=
      ⟨"f.year >= $7 AND (f.kind = $8 AND (f.title IS NULL OR f.kind = $9))",
        [.integer 1950, .text "short", .text "short"], 10⟩
    (Tree.Rewritten Tree.Law tree other ∧ other.accepts record = tree.accepts record ∧
        other.select [[], record] = tree.select [[], record]) ∧
      (Tree.Rewritten Tree.Drops tree plain ∧ Sql.compile plain 7 = .ok fragment ∧
        Sql.compile plain 7 = Sql.compile tree 7) ∧
      Tree.Within choice tree.pruned ∧ choice.leafCount ≠ 0 := by
  intro recent short untitled choice tree plain other record fragment
  have dropped : Tree.Rewritten Tree.Drops tree plain :=
    .single (.here (.mk .and [recent] [] [.group .and [short] [choice]] rfl))
  obtain ⟨_, ofDrops, ⟨_, filled⟩, _⟩ := rewriting_keeps_meaning tree plain
  obtain ⟨asLaws, sameFragment⟩ := ofDrops dropped
  have merged : Tree.Law plain (.group .and [recent, short] [choice]) :=
    .merges (.mk .and [recent] [short] [] [choice] [])
  have swapped : Tree.Law (.group .and [recent, short] [choice])
      (.group .and [short, recent] [choice]) :=
    .permutes (.mk .and (.swap short recent []) (.refl _))
  have inner : Tree.Law choice (.group .or [short, untitled] []) :=
    .permutes (.mk .or (.swap short untitled []) (.refl _))
  have rewritten : Tree.Rewritten Tree.Law tree other :=
    ((asLaws.tail (.here merged)).tail (.here swapped)).tail
      (.nested .and [short, recent] [] [] (.here inner))
  obtain ⟨accepts, selects⟩ := (rewriting_keeps_meaning tree other).1 rewritten
  have within : Tree.Within choice tree.pruned :=
    .deeper (List.mem_singleton_self _) (.own (List.mem_singleton_self _))
  exact ⟨⟨rewritten, accepts record, selects [[], record]⟩,
    ⟨dropped, rfl, sameFragment 7⟩, within, filled choice within⟩

end Sieve
