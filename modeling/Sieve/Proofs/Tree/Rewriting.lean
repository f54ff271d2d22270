import Mathlib.Logic.Relation
import Sieve.Proofs.Tree.Calls

/-! Trees rewritten by the laws of AND and OR: groups without a leaf are dropped, the parts of a group
change places, and a group is merged into the one around it. -/
namespace Sieve.Tree

variable {α β σ : Type}

inductive Drops : Tree α → Tree α → Prop
  | mk (c : Connective) (ls : List α) (gs hs : List (Tree α)) {g : Tree α}
      (empty : g.isEmpty = true) : Drops (group c ls (gs ++ g :: hs)) (group c ls (gs ++ hs))

inductive Permutes : Tree α → Tree α → Prop
  | mk (c : Connective) {ls ms : List α} {gs hs : List (Tree α)} (own : ls.Perm ms)
      (nested : gs.Perm hs) : Permutes (group c ls gs) (group c ms hs)

/-- A nested group under the same connective gives its leaves and its groups to the one around it. -/
inductive Merges : Tree α → Tree α → Prop
  | mk (c : Connective) (ls ms : List α) (gs inner hs : List (Tree α)) :
      Merges (group c ls (gs ++ group c ms inner :: hs)) (group c (ls ++ ms) (gs ++ inner ++ hs))

inductive Law : Tree α → Tree α → Prop
  | drops {t u : Tree α} (step : Drops t u) : Law t u
  | permutes {t u : Tree α} (step : Permutes t u) : Law t u
  | merges {t u : Tree α} (step : Merges t u) : Law t u

/-- A law is used once, at a tree itself or at a group in it, at any depth. -/
inductive Inside (law : Tree α → Tree α → Prop) : Tree α → Tree α → Prop
  | here {t u : Tree α} (step : law t u) : Inside law t u
  | nested (c : Connective) (ls : List α) (gs hs : List (Tree α)) {g h : Tree α}
      (step : Inside law g h) : Inside law (group c ls (gs ++ g :: hs)) (group c ls (gs ++ h :: hs))

theorem Inside.imp {law other : Tree α → Tree α → Prop} (weaker : ∀ t u, law t u → other t u)
    {t u : Tree α} (step : Inside law t u) : Inside other t u := by
  induction step with
  | here step => exact .here (weaker _ _ step)
  | nested c ls gs hs _ ih => exact .nested c ls gs hs ih

abbrev Rewritten (law : Tree α → Tree α → Prop) : Tree α → Tree α → Prop :=
  Relation.ReflTransGen (Inside law)

theorem Rewritten.imp {law other : Tree α → Tree α → Prop} (weaker : ∀ t u, law t u → other t u)
    {t u : Tree α} (rewritten : Rewritten law t u) : Rewritten other t u :=
  Relation.ReflTransGen.mono (fun _ _ step => step.imp weaker) _ _ rewritten

theorem Rewritten.nested {law : Tree α → Tree α → Prop} {g h : Tree α} (c : Connective)
    (ls : List α) (gs hs : List (Tree α)) (rewritten : Rewritten law g h) :
    Rewritten law (group c ls (gs ++ g :: hs)) (group c ls (gs ++ h :: hs)) :=
  rewritten.lift (fun g => group c ls (gs ++ g :: hs)) fun _ _ step => .nested c ls gs hs step

theorem areEmpty_eq_all (gs : List (Tree α)) : areEmpty gs = gs.all isEmpty := by
  induction gs with
  | nil => rfl
  | cons g gs ih => rw [areEmpty, ih, List.all_cons]

theorem leavesOfAll_append (gs hs : List (Tree α)) :
    leavesOfAll (gs ++ hs) = leavesOfAll gs ++ leavesOfAll hs := by
  induction gs with
  | nil => rfl
  | cons g gs ih => rw [List.cons_append, leavesOfAll, leavesOfAll, ih, List.append_assoc]

theorem leaves_of_drops {t u : Tree α} (step : Inside Drops t u) : u.leaves = t.leaves := by
  induction step with
  | here step =>
    cases step with
    | mk c ls gs hs empty =>
      rw [leaves, leaves, leavesOfAll_append, leavesOfAll_append, leavesOfAll,
        (isEmpty_iff _).mp empty, List.nil_append]
  | nested c ls gs hs _ ih =>
    rw [leaves, leaves, leavesOfAll_append, leavesOfAll_append, leavesOfAll, leavesOfAll, ih]

mutual

def pruned : Tree α → Tree α
  | group c ls gs => group c ls (prunedAll gs)

def prunedAll : List (Tree α) → List (Tree α)
  | [] => []
  | g :: gs => if g.isEmpty then prunedAll gs else pruned g :: prunedAll gs

end

theorem prunedAll_append (gs hs : List (Tree α)) :
    prunedAll (gs ++ hs) = prunedAll gs ++ prunedAll hs := by
  induction gs with
  | nil => rfl
  | cons g gs ih =>
    rw [List.cons_append, prunedAll, prunedAll, ih]
    split
    · rfl
    · rw [List.cons_append]

mutual

/-- Pruning is dropping one group after another. -/
theorem rewritten_pruned : (t : Tree α) → Rewritten Drops t t.pruned
  | group c ls gs => rewritten_prunedAll c ls [] gs

theorem rewritten_prunedAll (c : Connective) (ls : List α) (pruned : List (Tree α)) :
    (gs : List (Tree α)) →
      Rewritten Drops (group c ls (pruned ++ gs)) (group c ls (pruned ++ prunedAll gs))
  | [] => .refl
  | g :: gs => by
    rw [prunedAll]
    split
    next empty =>
      exact .head (.here (.mk c ls pruned gs empty)) (rewritten_prunedAll c ls pruned gs)
    next =>
      have rest := rewritten_prunedAll c ls (pruned ++ [g.pruned]) gs
      rw [List.append_assoc, List.append_assoc] at rest
      exact ((rewritten_pruned g).nested c ls pruned gs).trans rest

end

theorem pruned_of_drops {t u : Tree α} (step : Inside Drops t u) : u.pruned = t.pruned := by
  induction step with
  | here step =>
    cases step with
    | mk c ls gs hs empty =>
      rw [pruned, pruned, prunedAll_append, prunedAll_append, prunedAll, if_pos empty]
  | @nested c ls gs hs g h step ih =>
    have same : h.isEmpty = g.isEmpty := by
      rw [Bool.eq_iff_iff, isEmpty_iff, isEmpty_iff, leaves_of_drops step]
    rw [pruned, pruned, prunedAll_append, prunedAll_append, prunedAll, prunedAll, same, ih]

theorem leaves_of_rewritten_drops {t u : Tree α} (rewritten : Rewritten Drops t u) :
    u.leaves = t.leaves := by
  induction rewritten with
  | refl => rfl
  | tail _ step ih => rw [leaves_of_drops step, ih]

theorem pruned_of_rewritten_drops {t u : Tree α} (rewritten : Rewritten Drops t u) :
    u.pruned = t.pruned := by
  induction rewritten with
  | refl => rfl
  | tail _ step ih => rw [pruned_of_drops step, ih]

theorem leaves_pruned (t : Tree α) : t.pruned.leaves = t.leaves :=
  leaves_of_rewritten_drops (rewritten_pruned t)

theorem isEmpty_pruned (t : Tree α) : t.pruned.isEmpty = t.isEmpty := by
  rw [Bool.eq_iff_iff, isEmpty_iff, isEmpty_iff, leaves_pruned]

mutual

theorem Related.pruned {R : α → β → Prop} :
    {t : Tree α} → {u : Tree β} → Related R t u → Related R t.pruned u.pruned
  | group _ _ _, group _ _ _, ⟨same, own, groups⟩ => ⟨same, own, AllRelated.prunedAll groups⟩

theorem AllRelated.prunedAll {R : α → β → Prop} :
    {gs : List (Tree α)} → {hs : List (Tree β)} → AllRelated R gs hs →
      AllRelated R (prunedAll gs) (prunedAll hs)
  | [], [], _ => trivial
  | _ :: _, _ :: _, ⟨first, rest⟩ => by
    rw [Tree.prunedAll, Tree.prunedAll, Related.isEmpty_eq first]
    split
    · exact AllRelated.prunedAll rest
    · exact ⟨Related.pruned first, AllRelated.prunedAll rest⟩

end

/-- A walk over a pruned tree makes the same calls, and gives what a walk over the whole tree does,
pruned. -/
theorem run_pruned {f : α → StateM σ β} {t : Tree α} {u : Tree β} {first last : σ}
    (done : (t.mapM f).run first = (u, last)) :
    (t.pruned.mapM f).run first = (u.pruned, last) := by
  obtain ⟨shape, calls⟩ := run_eq_iff.mp done
  rw [run_eq_iff, leaves_pruned, leaves_pruned]
  exact ⟨shape.related.pruned.sameShape, calls⟩

inductive Within (g : Tree α) : Tree α → Prop
  | own {c : Connective} {ls : List α} {gs : List (Tree α)} (member : g ∈ gs) :
      Within g (group c ls gs)
  | deeper {c : Connective} {ls : List α} {gs : List (Tree α)} {h : Tree α} (member : h ∈ gs)
      (within : Within g h) : Within g (group c ls gs)

theorem within_group_iff {g : Tree α} {c : Connective} {ls : List α} {gs : List (Tree α)} :
    Within g (group c ls gs) ↔ g ∈ gs ∨ ∃ h ∈ gs, Within g h := by
  constructor
  · intro within
    cases within with
    | own member => exact .inl member
    | deeper member within => exact .inr ⟨_, member, within⟩
  · rintro (member | ⟨h, member, within⟩)
    · exact .own member
    · exact .deeper member within

mutual

/-- Every group of a pruned tree has a leaf. -/
theorem isEmpty_of_within_pruned {g : Tree α} :
    (t : Tree α) → Within g t.pruned → g.isEmpty = false
  | group c ls gs, within => by
    rcases within_group_iff.mp within with member | ⟨h, member, within⟩
    · exact (filled_of_mem_prunedAll (g := g) gs member).1
    · exact (filled_of_mem_prunedAll gs member).2 within

theorem filled_of_mem_prunedAll {g h : Tree α} :
    (gs : List (Tree α)) → h ∈ prunedAll gs → h.isEmpty = false ∧ (Within g h → g.isEmpty = false)
  | first :: gs, member => by
    rw [prunedAll] at member
    split at member
    next => exact filled_of_mem_prunedAll gs member
    next filled =>
      rcases List.mem_cons.mp member with rfl | later
      · exact ⟨by rw [isEmpty_pruned, Bool.eq_false_iff]; exact filled,
          isEmpty_of_within_pruned first⟩
      · exact filled_of_mem_prunedAll gs later

end

end Sieve.Tree
