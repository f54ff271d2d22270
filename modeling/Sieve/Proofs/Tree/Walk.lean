import Sieve.Proofs.Outcome
import Sieve.Proofs.Tree.Related

/-! Walks through a tree that run an action at every leaf. -/
namespace Sieve.Tree

variable {α β γ σ ε : Type}

section Leaves

variable {p : α → Prop}

theorem forall_leaves_group {c : Connective} {ls : List α} {gs : List (Tree α)} :
    (∀ a ∈ (group c ls gs).leaves, p a) ↔ (∀ a ∈ ls, p a) ∧ ∀ a ∈ leavesOfAll gs, p a := by
  rw [leaves, List.forall_mem_append]

theorem forall_leavesOfAll_cons {g : Tree α} {gs : List (Tree α)} :
    (∀ a ∈ leavesOfAll (g :: gs), p a) ↔
      (∀ a ∈ g.leaves, p a) ∧ ∀ a ∈ leavesOfAll gs, p a := by
  rw [leavesOfAll, List.forall_mem_append]

end Leaves

mutual

theorem map_id : (t : Tree α) → t.map id = t
  | group c ls gs => by rw [map, List.map_id, mapAll_id gs]

theorem mapAll_id : (gs : List (Tree α)) → mapAll id gs = gs
  | [] => rfl
  | g :: gs => by rw [mapAll, map_id g, mapAll_id gs]

end

section Effects

variable {m : Type → Type} [Monad m]

theorem mapM_eq_of_forall₂ [LawfulMonad m] {f : α → m γ} {f' : β → m γ} {ls : List α}
    {ms : List β} (same : List.Forall₂ (fun a b => f a = f' b) ls ms) : ls.mapM f = ms.mapM f' := by
  induction same with
  | nil => simp only [List.mapM_nil]
  | cons head _ ih => simp only [List.mapM_cons, head, ih]

mutual

theorem Related.mapM_eq [LawfulMonad m] {f : α → m γ} {f' : β → m γ} :
    {t : Tree α} → {u : Tree β} → Related (fun a b => f a = f' b) t u → t.mapM f = u.mapM f'
  | group _ ls gs, group _ ms hs, ⟨same, own, groups⟩ => by
    simp only [mapM, same, mapM_eq_of_forall₂ own, AllRelated.mapAllM_eq groups]

theorem AllRelated.mapAllM_eq [LawfulMonad m] {f : α → m γ} {f' : β → m γ} :
    {gs : List (Tree α)} → {hs : List (Tree β)} → AllRelated (fun a b => f a = f' b) gs hs →
      mapAllM f gs = mapAllM f' hs
  | [], [], _ => by simp only [mapAllM]
  | _ :: _, _ :: _, ⟨first, rest⟩ => by
    simp only [mapAllM, Related.mapM_eq first, AllRelated.mapAllM_eq rest]

end

mutual

/-- A walk runs its actions as a walk over the list of leaves does. -/
theorem leaves_mapM [LawfulMonad m] (f : α → m β) :
    (t : Tree α) → leaves <$> t.mapM f = t.leaves.mapM f
  | group c ls gs => by
    simp only [mapM, leaves, List.mapM_append, map_bind, map_pure]
    apply bind_congr
    intro ms
    rw [← leavesOfAll_mapAllM f gs, bind_map_left]

theorem leavesOfAll_mapAllM [LawfulMonad m] (f : α → m β) :
    (gs : List (Tree α)) → leavesOfAll <$> mapAllM f gs = (leavesOfAll gs).mapM f
  | [] => by simp only [mapAllM, leavesOfAll, List.mapM_nil, map_pure]
  | g :: gs => by
    simp only [mapAllM, leavesOfAll, List.mapM_append, map_bind, map_pure]
    rw [← leaves_mapM f g, ← leavesOfAll_mapAllM f gs]
    simp only [bind_map_left]

end

mutual

theorem mapM_map [LawfulMonad m] (f : α → β) (f' : β → m γ) :
    (t : Tree α) → (t.map f).mapM f' = t.mapM fun a => f' (f a)
  | group c ls gs => by
    have own : (ls.map f).mapM f' = ls.mapM fun a => f' (f a) := List.mapM_map
    simp only [map, mapM, own, mapAllM_mapAll f f' gs]

theorem mapAllM_mapAll [LawfulMonad m] (f : α → β) (f' : β → m γ) :
    (gs : List (Tree α)) → mapAllM f' (mapAll f gs) = mapAllM (fun a => f' (f a)) gs
  | [] => by simp only [mapAll, mapAllM]
  | g :: gs => by simp only [mapAll, mapAllM, mapM_map f f' g, mapAllM_mapAll f f' gs]

end

end Effects

theorem forall₂_of_mapM {f : α → Except ε β} {ls : List α} {ms : List β}
    (done : ls.mapM f = .ok ms) : List.Forall₂ (fun a b => f a = .ok b) ls ms := by
  induction ls generalizing ms with
  | nil =>
    cases done
    exact .nil
  | cons a ls ih =>
    rw [List.mapM_cons] at done
    obtain ⟨b, first, done⟩ := bind_eq_ok.mp done
    obtain ⟨bs, rest, done⟩ := bind_eq_ok.mp done
    cases done
    exact .cons first (ih rest)

theorem mapM_of_forall₂ {f : α → Except ε β} {ls : List α} {ms : List β}
    (each : List.Forall₂ (fun a b => f a = .ok b) ls ms) : ls.mapM f = .ok ms := by
  induction each with
  | nil => rfl
  | cons first _ ih =>
    rw [List.mapM_cons, first, ih]
    rfl

theorem exists_of_mapM {f : α → Except ε β} {ls : List α} {ms : List β} (done : ls.mapM f = .ok ms)
    {b : β} (member : b ∈ ms) : ∃ a ∈ ls, f a = .ok b :=
  exists_of_mem_right (forall₂_of_mapM done) member

mutual

theorem related_of_mapM {f : α → Except ε β} :
    {t : Tree α} → {u : Tree β} → t.mapM f = .ok u → Related (fun a b => f a = .ok b) t u
  | group c ls gs, u, done => by
    rw [mapM] at done
    obtain ⟨ms, own, done⟩ := bind_eq_ok.mp done
    obtain ⟨hs, groups, done⟩ := bind_eq_ok.mp done
    cases done
    exact ⟨rfl, forall₂_of_mapM own, allRelated_of_mapAllM groups⟩

theorem allRelated_of_mapAllM {f : α → Except ε β} :
    {gs : List (Tree α)} → {hs : List (Tree β)} → mapAllM f gs = .ok hs →
      AllRelated (fun a b => f a = .ok b) gs hs
  | [], hs, done => by
    cases done
    trivial
  | g :: gs, hs, done => by
    rw [mapAllM] at done
    obtain ⟨h, first, done⟩ := bind_eq_ok.mp done
    obtain ⟨others, rest, done⟩ := bind_eq_ok.mp done
    cases done
    exact ⟨related_of_mapM first, allRelated_of_mapAllM rest⟩

end

theorem mapM_of_forall_mem {f : α → Except ε β} {g : α → β} {ls : List α}
    (each : ∀ a ∈ ls, f a = .ok (g a)) : ls.mapM f = .ok (ls.map g) := by
  induction ls with
  | nil => rfl
  | cons a ls ih =>
    rw [List.mapM_cons, each a List.mem_cons_self, ih fun b member => each b (.tail _ member)]
    rfl

mutual

theorem mapM_of_forall {f : α → Except ε β} {g : α → β} :
    (t : Tree α) → (∀ a ∈ t.leaves, f a = .ok (g a)) → t.mapM f = .ok (t.map g)
  | group c ls gs, each => by
    obtain ⟨own, nested⟩ := forall_leaves_group.mp each
    rw [mapM, map, mapM_of_forall_mem own, mapAllM_of_forall gs nested]
    rfl

theorem mapAllM_of_forall {f : α → Except ε β} {g : α → β} :
    (gs : List (Tree α)) → (∀ a ∈ leavesOfAll gs, f a = .ok (g a)) →
      mapAllM f gs = .ok (mapAll g gs)
  | [], _ => rfl
  | h :: gs, each => by
    obtain ⟨first, rest⟩ := forall_leavesOfAll_cons.mp each
    rw [mapAllM, mapAll, mapM_of_forall h first, mapAllM_of_forall gs rest]
    rfl

end

section State

variable {f : α → StateM σ β}

theorem run_cons (a : α) (ls : List α) (s : σ) :
    ((a :: ls).mapM f).run s =
      (((f a).run s).1 :: ((ls.mapM f).run ((f a).run s).2).1,
        ((ls.mapM f).run ((f a).run s).2).2) := by
  rw [List.mapM_cons]
  rfl

theorem run_group (c : Connective) (ls : List α) (gs : List (Tree α)) (s : σ) :
    ((group c ls gs).mapM f).run s =
      (group c ((ls.mapM f).run s).1 ((mapAllM f gs).run ((ls.mapM f).run s).2).1,
        ((mapAllM f gs).run ((ls.mapM f).run s).2).2) := by
  rw [mapM]
  rfl

theorem run_groups (g : Tree α) (gs : List (Tree α)) (s : σ) :
    (mapAllM f (g :: gs)).run s =
      (((g.mapM f).run s).1 :: ((mapAllM f gs).run ((g.mapM f).run s).2).1,
        ((mapAllM f gs).run ((g.mapM f).run s).2).2) := by
  rw [mapAllM]
  rfl

theorem run_leaves (f : α → StateM σ β) (t : Tree α) (s : σ) :
    (t.leaves.mapM f).run s = (((t.mapM f).run s).1.leaves, ((t.mapM f).run s).2) := by
  rw [← leaves_mapM]
  rfl

theorem forall₂_run {R : α → β → Prop} (step : ∀ a s, R a ((f a).run s).1) (ls : List α) (s : σ) :
    List.Forall₂ R ls ((ls.mapM f).run s).1 := by
  induction ls generalizing s with
  | nil => exact .nil
  | cons a ls ih =>
    rw [run_cons]
    exact .cons (step a s) (ih ((f a).run s).2)

mutual

theorem related_run {R : α → β → Prop} (step : ∀ a s, R a ((f a).run s).1) :
    (t : Tree α) → (s : σ) → Related R t ((t.mapM f).run s).1
  | group c ls gs, s => by
    rw [run_group]
    exact ⟨rfl, forall₂_run step ls s, allRelated_run step gs _⟩

theorem allRelated_run {R : α → β → Prop} (step : ∀ a s, R a ((f a).run s).1) :
    (gs : List (Tree α)) → (s : σ) → AllRelated R gs ((mapAllM f gs).run s).1
  | [], _ => trivial
  | g :: gs, s => by
    rw [run_groups]
    exact ⟨related_run step g s, allRelated_run step gs _⟩

end

variable (move : σ → σ) {change : β → β}

theorem run_mapM_move
    (step : ∀ a s, (f a).run (move s) = (change ((f a).run s).1, move ((f a).run s).2))
    (ls : List α) (s : σ) :
    (ls.mapM f).run (move s) = (((ls.mapM f).run s).1.map change, move ((ls.mapM f).run s).2) := by
  induction ls generalizing s with
  | nil => rfl
  | cons a ls ih => rw [run_cons, run_cons, step, ih, List.map_cons]

mutual

/-- A walk from a moved state gives changed leaves, where every single step does. -/
theorem run_move
    (step : ∀ a s, (f a).run (move s) = (change ((f a).run s).1, move ((f a).run s).2)) :
    (t : Tree α) → (s : σ) →
      (t.mapM f).run (move s) = (((t.mapM f).run s).1.map change, move ((t.mapM f).run s).2)
  | group c ls gs, s => by
    rw [run_group, run_group, run_mapM_move move step, runAll_move step gs, map]

theorem runAll_move
    (step : ∀ a s, (f a).run (move s) = (change ((f a).run s).1, move ((f a).run s).2)) :
    (gs : List (Tree α)) → (s : σ) → (mapAllM f gs).run (move s) =
      (mapAll change ((mapAllM f gs).run s).1, move ((mapAllM f gs).run s).2)
  | [], _ => rfl
  | g :: gs, s => by
    rw [run_groups, run_groups, run_move step g, runAll_move step gs, mapAll]

end

end State
end Sieve.Tree
