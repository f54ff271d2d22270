import Sieve.Proofs.Modes

/-! The calls that walks make. Whatever a walk makes of the leaves of a tree, its action is called on
them in one order, once each, and no longer than calls succeed; what comes back has the shape of the
tree. -/
namespace Sieve.Tree

variable {α β σ ε : Type}

structure SameShape (t : Tree α) (u : Tree β) : Prop where
  /-- Connectives and nesting are the same, and so is the number of leaves of every group. -/
  related : Related (fun _ _ => True) t u
  leafCount : u.leafCount = t.leafCount
  depth : u.depth = t.depth

theorem Related.sameShape {R : α → β → Prop} {t : Tree α} {u : Tree β} (related : Related R t u) :
    SameShape t u where
  related := related.imp fun _ _ _ => trivial
  leafCount := related.leafCount_eq
  depth := related.depth_eq

theorem SameShape.eq_of_leaves {t : Tree α} {u v : Tree β} (first : SameShape t u)
    (second : SameShape t v) (same : u.leaves = v.leaves) : u = v :=
  (first.related.flip.comp second.related).eq_of_leaves same

/-- Calls of an action one after another: the state before them, what they are made on, what they
return, and the state after them. -/
inductive Calls (f : α → StateM σ β) : σ → List α → List β → σ → Prop
  | nil (s : σ) : Calls f s [] [] s
  | cons {a : α} {b : β} {as : List α} {bs : List β} {first next last : σ}
      (call : (f a).run first = (b, next)) (later : Calls f next as bs last) :
      Calls f first (a :: as) (b :: bs) last

theorem Calls.length_eq {f : α → StateM σ β} {ls : List α} {bs : List β} {first last : σ}
    (calls : Calls f first ls bs last) : bs.length = ls.length := by
  induction calls with
  | nil => rfl
  | cons _ _ ih => rw [List.length_cons, List.length_cons, ih]

theorem run_mapM_iff {f : α → StateM σ β} {ls : List α} {bs : List β} {first last : σ} :
    (ls.mapM f).run first = (bs, last) ↔ Calls f first ls bs last := by
  induction ls generalizing bs first with
  | nil =>
    constructor
    · intro done
      cases done
      exact .nil _
    · intro calls
      cases calls
      rfl
  | cons a ls ih =>
    rw [run_cons, Prod.mk.injEq]
    constructor
    · rintro ⟨rfl, rfl⟩
      exact .cons rfl (ih.mp rfl)
    · intro calls
      cases calls with
      | cons call later =>
        rw [call, ih.mpr later]
        exact ⟨rfl, rfl⟩

/-- A walk over a tree makes one call for each of its leaves. -/
theorem run_eq_iff {f : α → StateM σ β} {t : Tree α} {u : Tree β} {first last : σ} :
    (t.mapM f).run first = (u, last) ↔
      SameShape t u ∧ Calls f first t.leaves u.leaves last := by
  have shape : SameShape t ((t.mapM f).run first).1 :=
    (related_run (R := fun _ _ => True) (fun _ _ => trivial) t first).sameShape
  have calls := run_mapM_iff.mp (run_leaves f t first)
  constructor
  · intro done
    rw [done] at shape calls
    exact ⟨shape, calls⟩
  · rintro ⟨sameShape, others⟩
    have same := (run_mapM_iff.mpr calls).symm.trans (run_mapM_iff.mpr others)
    obtain ⟨leaves, states⟩ := Prod.mk.inj same
    exact Prod.ext (shape.eq_of_leaves sameShape leaves) states

section Failing

/-- What comes of a computation that can fail, and the state that it leaves behind in either case. -/
def attempt (x : ExceptT ε (StateM σ) α) (first : σ) : Except ε α × σ :=
  x.run.run first

theorem attempt_bind (x : ExceptT ε (StateM σ) α) (next : α → ExceptT ε (StateM σ) β) (first : σ) :
    attempt (x >>= next) first =
      match attempt x first with
      | (.ok a, middle) => attempt (next a) middle
      | (.error e, middle) => (.error e, middle) := by
  unfold attempt
  rw [ExceptT.run_bind, StateT.run_bind]
  cases x.run.run first with
  | mk result middle => cases result <;> rfl

theorem attempt_pure (a : α) (first : σ) :
    attempt (pure a : ExceptT ε (StateM σ) α) first = (.ok a, first) :=
  rfl

theorem attempt_bind_eq_ok {x : ExceptT ε (StateM σ) α} {next : α → ExceptT ε (StateM σ) β} {b : β}
    {first last : σ} :
    attempt (x >>= next) first = (.ok b, last) ↔
      ∃ a middle, attempt x first = (.ok a, middle) ∧ attempt (next a) middle = (.ok b, last) := by
  rw [attempt_bind]
  rcases attempt x first with ⟨_ | a, middle⟩ <;> simp

theorem attempt_bind_eq_error {x : ExceptT ε (StateM σ) α} {next : α → ExceptT ε (StateM σ) β}
    {e : ε} {first last : σ} :
    attempt (x >>= next) first = (.error e, last) ↔
      attempt x first = (.error e, last) ∨
        ∃ a middle, attempt x first = (.ok a, middle) ∧
          attempt (next a) middle = (.error e, last) := by
  rw [attempt_bind]
  rcases attempt x first with ⟨_ | a, middle⟩ <;> simp

variable {h : α → ExceptT ε (StateM σ) β}

theorem attempt_mapM_eq_ok_iff {ls : List α} {bs : List β} {first last : σ} :
    attempt (ls.mapM h) first = (.ok bs, last) ↔
      Calls (fun a => (h a).run) first ls (bs.map .ok) last := by
  induction ls generalizing bs first with
  | nil =>
    rw [List.mapM_nil, attempt_pure]
    constructor
    · intro done
      cases done
      exact .nil _
    · intro calls
      cases bs with
      | nil =>
        cases calls
        rfl
      | cons b bs => cases calls
  | cons a ls ih =>
    rw [List.mapM_cons, attempt_bind_eq_ok]
    constructor
    · rintro ⟨b, middle, call, later⟩
      obtain ⟨others, _, later, done⟩ := attempt_bind_eq_ok.mp later
      cases done
      exact .cons call (ih.mp later)
    · intro calls
      cases bs with
      | nil => cases calls
      | cons b bs =>
        cases calls with
        | cons call later =>
          exact ⟨b, _, call, attempt_bind_eq_ok.mpr ⟨bs, last, ih.mpr later, rfl⟩⟩

/-- Calls of an action one after another, the last of which fails and no other: the state before
them, what they are made on, the error, and the state after them. -/
inductive Fails (h : α → ExceptT ε (StateM σ) β) : σ → List α → ε → σ → Prop
  | last {a : α} {e : ε} {first last : σ} (call : attempt (h a) first = (.error e, last)) :
      Fails h first [a] e last
  | before {a : α} {b : β} {as : List α} {e : ε} {first next last : σ}
      (call : attempt (h a) first = (.ok b, next)) (later : Fails h next as e last) :
      Fails h first (a :: as) e last

theorem attempt_mapM_eq_error_iff {ls : List α} {e : ε} {first last : σ} :
    attempt (ls.mapM h) first = (.error e, last) ↔
      ∃ called left, ls = called ++ left ∧ Fails h first called e last := by
  induction ls generalizing first with
  | nil =>
    rw [List.mapM_nil, attempt_pure]
    constructor
    · rintro ⟨⟩
    · rintro ⟨called, left, whole, fails⟩
      obtain ⟨rfl, rfl⟩ := List.append_eq_nil_iff.mp whole.symm
      cases fails
  | cons a ls ih =>
    rw [List.mapM_cons, attempt_bind_eq_error]
    constructor
    · rintro (failed | ⟨b, middle, call, later⟩)
      · exact ⟨[a], ls, rfl, .last failed⟩
      · rcases attempt_bind_eq_error.mp later with failed | ⟨_, _, _, done⟩
        · obtain ⟨called, left, rfl, fails⟩ := ih.mp failed
          exact ⟨a :: called, left, rfl, .before call fails⟩
        · cases done
    · rintro ⟨called, left, whole, fails⟩
      cases fails with
      | last failed =>
        cases whole
        exact .inl failed
      | before call fails =>
        cases whole
        exact .inr ⟨_, _, call, attempt_bind_eq_error.mpr (.inl (ih.mpr ⟨_, left, rfl, fails⟩))⟩

theorem attempt_leaves (t : Tree α) (first : σ) :
    attempt (t.leaves.mapM h) first =
      ((attempt (t.mapM h) first).1.map leaves, (attempt (t.mapM h) first).2) := by
  rw [← leaves_mapM, map_eq_pure_bind, attempt_bind]
  rcases attempt (t.mapM h) first with ⟨_ | u, last⟩ <;> rfl

theorem forall₂_of_attempt {ls : List α} {bs : List β} {first last : σ}
    (done : attempt (ls.mapM h) first = (.ok bs, last)) :
    List.Forall₂ (fun _ _ => True) ls bs := by
  have calls := attempt_mapM_eq_ok_iff.mp done
  have lengths := calls.length_eq
  rw [List.length_map] at lengths
  exact List.forall₂_iff_get.mpr ⟨lengths.symm, fun _ _ _ => trivial⟩

mutual

theorem related_of_attempt : {t : Tree α} → {u : Tree β} → {first last : σ} →
    attempt (t.mapM h) first = (.ok u, last) → Related (fun _ _ => True) t u
  | group c ls gs, u, first, last, done => by
    rw [mapM] at done
    obtain ⟨ms, _, own, done⟩ := attempt_bind_eq_ok.mp done
    obtain ⟨hs, _, groups, done⟩ := attempt_bind_eq_ok.mp done
    cases done
    exact ⟨rfl, forall₂_of_attempt own, allRelated_of_attempt groups⟩

theorem allRelated_of_attempt : {gs : List (Tree α)} → {hs : List (Tree β)} → {first last : σ} →
    attempt (mapAllM h gs) first = (.ok hs, last) → AllRelated (fun _ _ => True) gs hs
  | [], hs, first, last, done => by
    cases done
    trivial
  | g :: gs, hs, first, last, done => by
    rw [mapAllM] at done
    obtain ⟨_, _, one, done⟩ := attempt_bind_eq_ok.mp done
    obtain ⟨_, _, others, done⟩ := attempt_bind_eq_ok.mp done
    cases done
    exact ⟨related_of_attempt one, allRelated_of_attempt others⟩

end

/-- A walk over a tree succeeds where each of its calls does. -/
theorem attempt_eq_ok_iff {t : Tree α} {u : Tree β} {first last : σ} :
    attempt (t.mapM h) first = (.ok u, last) ↔
      SameShape t u ∧ Calls (fun a => (h a).run) first t.leaves (u.leaves.map .ok) last := by
  rw [← attempt_mapM_eq_ok_iff, attempt_leaves]
  constructor
  · intro done
    rw [done]
    exact ⟨(related_of_attempt done).sameShape, rfl⟩
  · rintro ⟨shape, same⟩
    cases done : attempt (t.mapM h) first with
    | mk result middle =>
      rw [done] at same
      cases result with
      | error e => cases same
      | ok v =>
        obtain ⟨leaves, rfl⟩ := Prod.mk.inj same
        have other : SameShape t v := (related_of_attempt done).sameShape
        rw [shape.eq_of_leaves other (Except.ok.inj leaves).symm]

/-- A walk over a tree fails with the first call that does, and makes no call after it. -/
theorem attempt_eq_error_iff {t : Tree α} {e : ε} {first last : σ} :
    attempt (t.mapM h) first = (.error e, last) ↔
      ∃ called left, t.leaves = called ++ left ∧ Fails h first called e last := by
  rw [← attempt_mapM_eq_error_iff, attempt_leaves]
  rcases attempt (t.mapM h) first with ⟨_ | u, middle⟩ <;> simp [Except.map]

end Failing

section Stateless

variable {h : α → Except ε β} {t : Tree α}

theorem mapM_eq_ok_iff {u : Tree β} : t.mapM h = .ok u ↔ t.map h = u.map .ok := by
  constructor
  · intro done
    exact (related_of_mapM done).map_eq_map
  · intro same
    have results : (t.map h).mapM id = t.mapM h := mapM_map h id t
    have successes : (u.map Except.ok).mapM id = u.mapM (.ok : β → Except ε β) :=
      mapM_map Except.ok id u
    have done : u.mapM (.ok : β → Except ε β) = .ok (u.map id) :=
      mapM_of_forall u fun _ _ => rfl
    rw [← results, same, successes, done, map_id]

theorem mapM_succeeds_iff_leaves :
    (∃ u, t.mapM h = .ok u) ↔ ∀ a ∈ t.leaves, ∃ b, h a = .ok b := by
  rw [mapM_succeeds_iff, errors, List.filterMap_eq_nil_iff]
  apply forall₂_congr
  intro a _
  cases h a with
  | error e => simp [errorOf?]
  | ok b => simp [errorOf?]

theorem mapM_eq_error_iff_leaf {e : ε} :
    t.mapM h = .error e ↔
      ∃ before a after, t.leaves = before ++ a :: after ∧ (∀ b ∈ before, ∃ c, h b = .ok c) ∧
        h a = .error e := by
  rw [mapM_eq_error_iff, errors, ← Sieve.mapM_eq_error_iff, mapM_eq_error_iff_first]

end Stateless

/-- All walks meet the same leaves in the same order and keep the shape: counting them, replacing
them, with and without a state, and replacing them until an error. An action with a state is called
on them one after another, once each, and on none behind the first at which it fails. -/
theorem walks_agree (t : Tree α) :
    (t.leaves.length = t.leafCount ∧ (t.isEmpty = true ↔ t.leafCount = 0)) ∧
    (∀ f : α → β, SameShape t (t.map f) ∧ (t.map f).leaves = t.leaves.map f) ∧
    (∀ (f : α → StateM σ β) (first last : σ) (u : Tree β), (t.mapM f).run first = (u, last) ↔
      SameShape t u ∧ Calls f first t.leaves u.leaves last) ∧
    (∀ h : α → Except ε β,
      ((∃ u, t.mapM h = .ok u) ↔ ∀ a ∈ t.leaves, ∃ b, h a = .ok b) ∧
      (∀ u, t.mapM h = .ok u ↔ t.map h = u.map .ok) ∧
      ∀ e, t.mapM h = .error e ↔
        ∃ before a after, t.leaves = before ++ a :: after ∧ (∀ b ∈ before, ∃ c, h b = .ok c) ∧
          h a = .error e) ∧
    ∀ (h : α → ExceptT ε (StateM σ) β) (first last : σ),
      (∀ u, attempt (t.mapM h) first = (.ok u, last) ↔
        SameShape t u ∧ Calls (fun a => (h a).run) first t.leaves (u.leaves.map .ok) last) ∧
      ∀ e, attempt (t.mapM h) first = (.error e, last) ↔
        ∃ called left, t.leaves = called ++ left ∧ Fails h first called e last := by
  refine ⟨⟨t.leafCount_eq_length.symm, ?_⟩, fun f => ⟨(related_map f t).sameShape, leaves_map f t⟩,
    fun f first last u => run_eq_iff, fun h => ⟨mapM_succeeds_iff_leaves, fun u => mapM_eq_ok_iff,
      fun e => mapM_eq_error_iff_leaf⟩,
    fun h first last => ⟨fun u => attempt_eq_ok_iff, fun e => attempt_eq_error_iff⟩⟩
  rw [isEmpty_iff, leafCount_eq_length, List.length_eq_zero_iff]

-- The third leaf is refused, so that three calls are made and not five.
example :
    let small (n : Nat) : ExceptT Nat (StateM Nat) Nat :=
      ExceptT.mk fun calls => (if n < 5 then .ok n else .error n, calls + 1)
    let tree := group .and [1, 2] [all [], group .or [5] [all [4]], all [3]]
    attempt (tree.mapM small) 0 = (.error 5, 3) :=
  rfl

end Sieve.Tree
