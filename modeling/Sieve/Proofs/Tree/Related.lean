import Mathlib.Data.List.Forall2
import Sieve.Tree

/-! Trees of one shape. A walk with effects keeps the shape of a tree, and meets its leaves as a
walk over the list of them does. -/
namespace Sieve.Tree

variable {α β γ σ ε : Type}

mutual

/-- Connectives and nesting are the same, and leaves that stand in the same place are related. -/
def Related (R : α → β → Prop) : Tree α → Tree β → Prop
  | group c ls gs, group d ms hs => c = d ∧ List.Forall₂ R ls ms ∧ AllRelated R gs hs

def AllRelated (R : α → β → Prop) : List (Tree α) → List (Tree β) → Prop
  | [], [] => True
  | g :: gs, h :: hs => Related R g h ∧ AllRelated R gs hs
  | _, _ => False

end

mutual

theorem Related.imp {R S : α → β → Prop} (weaker : ∀ a b, R a b → S a b) :
    {t : Tree α} → {u : Tree β} → Related R t u → Related S t u
  | group _ _ _, group _ _ _, ⟨same, leaves, groups⟩ =>
    ⟨same, leaves.imp weaker, AllRelated.imp weaker groups⟩

theorem AllRelated.imp {R S : α → β → Prop} (weaker : ∀ a b, R a b → S a b) :
    {gs : List (Tree α)} → {hs : List (Tree β)} → AllRelated R gs hs → AllRelated S gs hs
  | [], [], _ => trivial
  | _ :: _, _ :: _, ⟨first, rest⟩ => ⟨Related.imp weaker first, AllRelated.imp weaker rest⟩

end

mutual

theorem Related.flip {R : α → β → Prop} :
    {t : Tree α} → {u : Tree β} → Related R t u → Related (fun b a => R a b) u t
  | group _ _ _, group _ _ _, ⟨same, leaves, groups⟩ =>
    ⟨same.symm, leaves.flip, AllRelated.flip groups⟩

theorem AllRelated.flip {R : α → β → Prop} :
    {gs : List (Tree α)} → {hs : List (Tree β)} → AllRelated R gs hs →
      AllRelated (fun b a => R a b) hs gs
  | [], [], _ => trivial
  | _ :: _, _ :: _, ⟨first, rest⟩ => ⟨Related.flip first, AllRelated.flip rest⟩

end

theorem forall₂_comp {R : α → β → Prop} {S : β → γ → Prop} {ls : List α} {ms : List β}
    {ns : List γ} (first : List.Forall₂ R ls ms) (second : List.Forall₂ S ms ns) :
    List.Forall₂ (fun a c => ∃ b, R a b ∧ S b c) ls ns := by
  induction first generalizing ns with
  | nil =>
    cases second
    exact .nil
  | cons head _ ih =>
    cases second with
    | cons next rest => exact .cons ⟨_, head, next⟩ (ih rest)

mutual

theorem Related.comp {R : α → β → Prop} {S : β → γ → Prop} :
    {t : Tree α} → {u : Tree β} → {v : Tree γ} → Related R t u → Related S u v →
      Related (fun a c => ∃ b, R a b ∧ S b c) t v
  | group _ _ _, group _ _ _, group _ _ _, ⟨same, leaves, groups⟩, ⟨same', leaves', groups'⟩ =>
    ⟨same.trans same', forall₂_comp leaves leaves', AllRelated.comp groups groups'⟩

theorem AllRelated.comp {R : α → β → Prop} {S : β → γ → Prop} :
    {gs : List (Tree α)} → {hs : List (Tree β)} → {is : List (Tree γ)} → AllRelated R gs hs →
      AllRelated S hs is → AllRelated (fun a c => ∃ b, R a b ∧ S b c) gs is
  | [], [], [], _, _ => trivial
  | _ :: _, _ :: _, _ :: _, ⟨first, rest⟩, ⟨first', rest'⟩ =>
    ⟨Related.comp first first', AllRelated.comp rest rest'⟩

end

mutual

theorem Related.leaves {R : α → β → Prop} :
    {t : Tree α} → {u : Tree β} → Related R t u → List.Forall₂ R t.leaves u.leaves
  | group _ _ _, group _ _ _, ⟨_, own, groups⟩ => List.rel_append own (AllRelated.leaves groups)

theorem AllRelated.leaves {R : α → β → Prop} :
    {gs : List (Tree α)} → {hs : List (Tree β)} → AllRelated R gs hs →
      List.Forall₂ R (leavesOfAll gs) (leavesOfAll hs)
  | [], [], _ => .nil
  | _ :: _, _ :: _, ⟨first, rest⟩ =>
    List.rel_append (Related.leaves first) (AllRelated.leaves rest)

end

theorem exists_of_mem_right {R : α → β → Prop} {ls : List α} {ms : List β}
    (each : List.Forall₂ R ls ms) {b : β} (member : b ∈ ms) : ∃ a ∈ ls, R a b := by
  obtain ⟨i, inside, rfl⟩ := List.getElem_of_mem member
  have inside' := each.length_eq.symm ▸ inside
  exact ⟨_, List.getElem_mem inside', each.get inside' inside⟩

theorem exists_of_mem_left {R : α → β → Prop} {ls : List α} {ms : List β}
    (each : List.Forall₂ R ls ms) {a : α} (member : a ∈ ls) : ∃ b ∈ ms, R a b :=
  exists_of_mem_right (R := fun b a => R a b) each.flip member

theorem Related.exists_leaf {R : α → β → Prop} {t : Tree α} {u : Tree β} (related : Related R t u)
    {b : β} (member : b ∈ u.leaves) : ∃ a ∈ t.leaves, R a b :=
  exists_of_mem_right related.leaves member

theorem Related.leafCount_eq {R : α → β → Prop} {t : Tree α} {u : Tree β}
    (related : Related R t u) : u.leafCount = t.leafCount := by
  rw [leafCount_eq_length, leafCount_eq_length, related.leaves.length_eq]

mutual

theorem Related.depth_eq {R : α → β → Prop} :
    {t : Tree α} → {u : Tree β} → Related R t u → u.depth = t.depth
  | group _ _ _, group _ _ _, ⟨_, _, groups⟩ => by
    rw [depth, depth, AllRelated.maxDepth_eq groups]

theorem AllRelated.maxDepth_eq {R : α → β → Prop} :
    {gs : List (Tree α)} → {hs : List (Tree β)} → AllRelated R gs hs → maxDepth hs = maxDepth gs
  | [], [], _ => rfl
  | _ :: _, _ :: _, ⟨first, rest⟩ => by
    rw [maxDepth, maxDepth, Related.depth_eq first, AllRelated.maxDepth_eq rest]

end

mutual

/-- Trees of one shape with the same leaves are the same. -/
theorem Related.eq_of_leaves {R : α → α → Prop} :
    {t : Tree α} → {u : Tree α} → Related R t u → t.leaves = u.leaves → t = u
  | group _ _ _, group _ _ _, ⟨connectives, own, groups⟩, same => by
    obtain ⟨ownSame, nestedSame⟩ := List.append_inj same own.length_eq
    rw [connectives, ownSame, AllRelated.eq_of_leaves groups nestedSame]

theorem AllRelated.eq_of_leaves {R : α → α → Prop} :
    {gs : List (Tree α)} → {hs : List (Tree α)} → AllRelated R gs hs →
      leavesOfAll gs = leavesOfAll hs → gs = hs
  | [], [], _, _ => rfl
  | _ :: _, _ :: _, ⟨first, rest⟩, same => by
    obtain ⟨firstSame, restSame⟩ := List.append_inj same (Related.leaves first).length_eq
    rw [Related.eq_of_leaves first firstSame, AllRelated.eq_of_leaves rest restSame]

end

mutual

theorem related_map (f : α → β) : (t : Tree α) → Related (fun a b => b = f a) t (t.map f)
  | group c ls gs => by
    have own : List.Forall₂ (fun a b => b = f a) ls (ls.map f) := by
      rw [List.forall₂_map_right_iff, List.forall₂_same]
      exact fun _ _ => rfl
    exact ⟨rfl, own, allRelated_mapAll f gs⟩

theorem allRelated_mapAll (f : α → β) :
    (gs : List (Tree α)) → AllRelated (fun a b => b = f a) gs (mapAll f gs)
  | [] => trivial
  | g :: gs => ⟨related_map f g, allRelated_mapAll f gs⟩

end

theorem Related.map_eq_map {f : α → γ} {g : β → γ} {t : Tree α} {u : Tree β}
    (related : Related (fun a b => f a = g b) t u) : t.map f = u.map g := by
  apply ((related_map f t).flip.comp (related.comp (related_map g u))).eq_of_leaves
  rw [leaves_map, leaves_map, ← List.forall₂_eq_eq_eq, List.forall₂_map_left_iff,
    List.forall₂_map_right_iff]
  exact related.leaves

theorem Related.isEmpty_eq {R : α → β → Prop} {t : Tree α} {u : Tree β} (related : Related R t u) :
    t.isEmpty = u.isEmpty := by
  have lengths := related.leaves.length_eq
  rw [Bool.eq_iff_iff, isEmpty_iff, isEmpty_iff, ← List.length_eq_zero_iff, lengths,
    List.length_eq_zero_iff]

end Sieve.Tree
