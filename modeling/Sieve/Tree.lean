/-! Boolean combinations of leaves. Every walk goes through the leaves of a group first and then
through its nested groups, depth first. -/
namespace Sieve

inductive Connective where
  | and
  | or
  deriving DecidableEq

namespace Connective

def name : Connective → String
  | and => "and"
  | or => "or"

def keyword : Connective → String
  | and => "AND"
  | or => "OR"

end Connective

inductive Tree (α : Type) where
  | group (connective : Connective) (leaves : List α) (groups : List (Tree α))

namespace Tree

variable {α β : Type}

def connective : Tree α → Connective
  | group c _ _ => c

def ownLeaves : Tree α → List α
  | group _ ls _ => ls

def groups : Tree α → List (Tree α)
  | group _ _ gs => gs

def all (ls : List α) : Tree α :=
  group .and ls []

def addLeaf (leaf : α) : Tree α → Tree α
  | group c ls gs => group c (ls ++ [leaf]) gs

mutual

def isEmpty : Tree α → Bool
  | group _ ls gs => ls.isEmpty && areEmpty gs

def areEmpty : List (Tree α) → Bool
  | [] => true
  | g :: gs => isEmpty g && areEmpty gs

end

mutual

def leaves : Tree α → List α
  | group _ ls gs => ls ++ leavesOfAll gs

def leavesOfAll : List (Tree α) → List α
  | [] => []
  | g :: gs => leaves g ++ leavesOfAll gs

end

mutual

def leafCount : Tree α → Nat
  | group _ ls gs => ls.length + leafCountOfAll gs

def leafCountOfAll : List (Tree α) → Nat
  | [] => 0
  | g :: gs => leafCount g + leafCountOfAll gs

end

mutual

/-- How deeply groups are nested; a group without nested groups has depth one. -/
def depth : Tree α → Nat
  | group _ _ gs => 1 + maxDepth gs

def maxDepth : List (Tree α) → Nat
  | [] => 0
  | g :: gs => max (depth g) (maxDepth gs)

end

mutual

def map (f : α → β) : Tree α → Tree β
  | group c ls gs => group c (ls.map f) (mapAll f gs)

def mapAll (f : α → β) : List (Tree α) → List (Tree β)
  | [] => []
  | g :: gs => map f g :: mapAll f gs

end

mutual

def mapM {m : Type → Type} [Monad m] (f : α → m β) : Tree α → m (Tree β)
  | group c ls gs => do
    let ls ← ls.mapM f
    let gs ← mapAllM f gs
    return group c ls gs

def mapAllM {m : Type → Type} [Monad m] (f : α → m β) : List (Tree α) → m (List (Tree β))
  | [] => pure []
  | g :: gs => do
    let g ← mapM f g
    let gs ← mapAllM f gs
    return g :: gs

end

mutual

/-- Whether the tree holds when a leaf holds as told. A group without any leaf asks nothing, and is
left out of the group around it. -/
def holds (p : α → Bool) : Tree α → Bool
  | group c ls gs =>
    let results := ls.map p ++ resultsOf p gs
    results.isEmpty || match c with
      | .and => results.all id
      | .or => results.any id

def resultsOf (p : α → Bool) : List (Tree α) → List Bool
  | [] => []
  | g :: gs => if isEmpty g then resultsOf p gs else holds p g :: resultsOf p gs

end

mutual

theorem leafCount_eq_length : (t : Tree α) → t.leafCount = t.leaves.length
  | group _ ls gs => by simp [leafCount, leaves, leafCountOfAll_eq_length gs]

theorem leafCountOfAll_eq_length :
    (gs : List (Tree α)) → leafCountOfAll gs = (leavesOfAll gs).length
  | [] => rfl
  | g :: gs => by
    simp [leafCountOfAll, leavesOfAll, leafCount_eq_length g, leafCountOfAll_eq_length gs]

end

mutual

theorem isEmpty_iff : (t : Tree α) → (t.isEmpty = true ↔ t.leaves = [])
  | group _ ls gs => by simp [isEmpty, leaves, areEmpty_iff gs]

theorem areEmpty_iff : (gs : List (Tree α)) → (areEmpty gs = true ↔ leavesOfAll gs = [])
  | [] => by simp [areEmpty, leavesOfAll]
  | g :: gs => by simp [areEmpty, leavesOfAll, isEmpty_iff g, areEmpty_iff gs]

end

mutual

theorem leaves_map (f : α → β) : (t : Tree α) → (t.map f).leaves = t.leaves.map f
  | group _ ls gs => by simp [map, leaves, leavesOfAll_mapAll f gs]

theorem leavesOfAll_mapAll (f : α → β) :
    (gs : List (Tree α)) → leavesOfAll (mapAll f gs) = (leavesOfAll gs).map f
  | [] => rfl
  | g :: gs => by simp [mapAll, leavesOfAll, leaves_map f g, leavesOfAll_mapAll f gs]

end

theorem leaves_all (ls : List α) : (all ls).leaves = ls := by
  simp [all, leaves, leavesOfAll]

end Tree
end Sieve
