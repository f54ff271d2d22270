import Mathlib.Algebra.GroupWithZero.Nat
import Sieve.Proofs.Document.Parts

/-! Walks through documents. A walk counts the filters that it meets, so what it gives is stated
together with the count before and after it. -/
namespace Sieve.Document

variable {limits : Limits} {α β : Type}

theorem walk_bind_eq_ok {walk : Walk α} {next : α → Walk β} {count after : Nat} {b : β} :
    (walk >>= next) count = .ok (b, after) ↔
      ∃ a between, walk count = .ok (a, between) ∧ next a between = .ok (b, after) := by
  change (walk count >>= fun step => next step.1 step.2) = _ ↔ _
  rw [bind_eq_ok]
  simp

theorem walk_pure_eq_ok {a b : α} {count after : Nat} :
    (pure a : Walk α) count = .ok (b, after) ↔ b = a ∧ after = count := by
  change Except.ok (a, count) = .ok (b, after) ↔ _
  simp [eq_comm]

theorem walk_lift_eq_ok {x : Except FilterError α} {a : α} {count after : Nat} :
    (liftM x : Walk α) count = .ok (a, after) ↔ x = .ok a ∧ after = count := by
  cases x with
  | error e => exact ⟨nofun, nofun⟩
  | ok b =>
    change Except.ok (b, count) = .ok (a, after) ↔ _
    simp [eq_comm]

/-- A walk that gives what is spelled, and counts the filters in it within the limit. -/
def Reads (limits : Limits) (walk : Walk α) (spelled : α → Prop) (size : α → Nat) : Prop :=
  ∀ count, count ≤ limits.maxFilters → ∀ a after, walk count = .ok (a, after) ↔
    spelled a ∧ after = count + size a ∧ after ≤ limits.maxFilters

theorem Reads.run_eq_ok_iff {walk : Walk α} {spelled : α → Prop} {size : α → Nat}
    (reads : Reads limits walk spelled size) {a : α} :
    (walk 0).map Prod.fst = .ok a ↔ spelled a ∧ size a ≤ limits.maxFilters := by
  rw [map_eq_ok]
  constructor
  · rintro ⟨⟨_, after⟩, done, rfl⟩
    obtain ⟨spells, rfl, within⟩ := (reads 0 (Nat.zero_le _) _ after).mp done
    rw [Nat.zero_add] at within
    exact ⟨spells, within⟩
  · rintro ⟨spells, within⟩
    exact ⟨(a, size a), (reads 0 (Nat.zero_le _) _ _).mpr
      ⟨spells, (Nat.zero_add _).symm, within⟩, rfl⟩

def sizeOfAll (size : β → Nat) (parts : List β) : Nat :=
  (parts.map size).sum

theorem sizeOfAll_cons (size : β → Nat) (part : β) (parts : List β) :
    sizeOfAll size (part :: parts) = size part + sizeOfAll size parts :=
  List.sum_cons

theorem sizeOfAll_one (parts : List β) : sizeOfAll (fun _ => 1) parts = parts.length := by
  induction parts with
  | nil => rfl
  | cons part parts ih =>
    rw [sizeOfAll_cons, ih, List.length_cons]
    omega

theorem reads_mapM {walk : α → Walk β} {spelled : α → β → Prop} {size : β → Nat}
    (each : ∀ a, Reads limits (walk a) (spelled a) size) (ls : List α) :
    Reads limits (ls.mapM walk) (List.Forall₂ spelled ls) (sizeOfAll size) := by
  -- The count that one part leaves is the count before the next.
  induction ls with
  | nil =>
    intro count within bs after
    rw [List.mapM_nil, walk_pure_eq_ok]
    constructor
    · rintro ⟨rfl, rfl⟩
      exact ⟨.nil, rfl, within⟩
    · rintro ⟨spelled, rfl, _⟩
      cases spelled
      exact ⟨rfl, rfl⟩
  | cons a ls ih =>
    intro count within bs after
    rw [List.mapM_cons]
    constructor
    · intro run
      obtain ⟨b, between, first, run⟩ := walk_bind_eq_ok.mp run
      obtain ⟨spelled, rfl, stillWithin⟩ := (each a count within b between).mp first
      obtain ⟨others, _, rest, run⟩ := walk_bind_eq_ok.mp run
      obtain ⟨othersSpelled, rfl, stillWithin⟩ := (ih _ stillWithin others _).mp rest
      obtain ⟨rfl, rfl⟩ := walk_pure_eq_ok.mp run
      refine ⟨.cons spelled othersSpelled, ?_, stillWithin⟩
      rw [sizeOfAll_cons, Nat.add_assoc]
    · rintro ⟨spelled, total, stillWithin⟩
      cases spelled with
      | cons spelled othersSpelled =>
        rename_i b others
        rw [sizeOfAll_cons] at total
        refine walk_bind_eq_ok.mpr ⟨b, count + size b, ?_, ?_⟩
        · exact (each a count within b _).mpr ⟨spelled, rfl, by omega⟩
        · refine walk_bind_eq_ok.mpr ⟨others, after, ?_, walk_pure_eq_ok.mpr ⟨rfl, rfl⟩⟩
          exact (ih _ (by omega) others after).mpr ⟨othersSpelled, by omega, stillWithin⟩

theorem countFilter_eq_ok_iff {count after : Nat} {u : Unit} :
    countFilter limits count = .ok (u, after) ↔
      after = count + 1 ∧ after ≤ limits.maxFilters := by
  unfold countFilter
  split
  next beyond =>
    simp only [reduceCtorEq, false_iff, not_and]
    omega
  next =>
    simp only [Except.ok.injEq, Prod.mk.injEq, true_and]
    omega

theorem reads_counted {read : Except FilterError Filter} {spelled : Filter → Prop}
    (spells : ∀ f, read = .ok f ↔ spelled f) :
    Reads limits (countFilter limits >>= fun _ => liftM read) spelled fun _ => 1 := by
  intro count _ f after
  constructor
  · intro run
    obtain ⟨_, between, counted, run⟩ := walk_bind_eq_ok.mp run
    obtain ⟨rfl, stillWithin⟩ := countFilter_eq_ok_iff.mp counted
    obtain ⟨done, rfl⟩ := walk_lift_eq_ok.mp run
    exact ⟨(spells f).mp done, rfl, stillWithin⟩
  · rintro ⟨done, rfl, stillWithin⟩
    exact walk_bind_eq_ok.mpr ⟨(), count + 1, countFilter_eq_ok_iff.mpr ⟨rfl, stillWithin⟩,
      walk_lift_eq_ok.mpr ⟨(spells f).mpr done, rfl⟩⟩

theorem reads_treeFilter (members : List (String × Json)) :
    Reads limits (treeFilter limits members) (Entry members) fun _ => 1 :=
  reads_counted fun _ => filter_eq_ok_iff

theorem reads_flatFilter (field operator : String) (item : Json) :
    Reads limits (flatFilter limits field operator item)
      (fun f => f.field = field ∧ f.operator = operator ∧ Operand item f.value) fun _ => 1 := by
  have whole : flatFilter limits field operator item = countFilter limits >>= fun _ =>
      liftM ((operand field item).map fun v => (⟨field, operator, v⟩ : Filter)) := by
    unfold flatFilter
    cases operand field item <;> rfl
  rw [whole]
  apply reads_counted
  intro f
  rw [map_eq_ok]
  constructor
  · rintro ⟨v, read, rfl⟩
    exact ⟨rfl, rfl, operand_eq_ok_iff.mp read⟩
  · rintro ⟨rfl, rfl, spelled⟩
    exact ⟨f.value, operand_eq_ok_iff.mpr spelled, rfl⟩

theorem reads_single {walk : Walk Filter} {spelled : Filter → Prop} {filters : List Filter → Prop}
    (reads : Reads limits walk spelled fun _ => 1)
    (same : ∀ fs, filters fs ↔ ∃ f, fs = [f] ∧ spelled f) :
    Reads limits (do return [← walk]) filters List.length := by
  intro count within fs after
  constructor
  · intro run
    obtain ⟨f, between, one, run⟩ := walk_bind_eq_ok.mp run
    obtain ⟨rfl, rfl⟩ := walk_pure_eq_ok.mp run
    obtain ⟨done, total, stillWithin⟩ := (reads count within f _).mp one
    exact ⟨(same _).mpr ⟨f, rfl, done⟩, total, stillWithin⟩
  · rintro ⟨done, total, stillWithin⟩
    obtain ⟨f, rfl, spells⟩ := (same fs).mp done
    exact walk_bind_eq_ok.mpr ⟨f, after, (reads count within f after).mpr ⟨spells, total, stillWithin⟩,
      walk_pure_eq_ok.mpr ⟨rfl, rfl⟩⟩

theorem not_operand_object {pairs : List (String × Json)} {v : Option RawValue} :
    ¬Operand (.object pairs) v := by
  intro operand
  cases operand with
  | single element => cases element

theorem reads_null (field : String) :
    Reads limits (flatMember limits (field, .null)) (Member (field, .null)) List.length := by
  intro count _ fs after
  constructor
  · intro run
    obtain ⟨_, between, counted, run⟩ := walk_bind_eq_ok.mp run
    obtain ⟨rfl, stillWithin⟩ := countFilter_eq_ok_iff.mp counted
    obtain ⟨rfl, rfl⟩ := walk_pure_eq_ok.mp run
    exact ⟨.null field, rfl, stillWithin⟩
  · rintro ⟨spelled, total, stillWithin⟩
    cases spelled with
    | literal operand =>
      cases operand with
      | single element => cases element
    | null =>
      exact walk_bind_eq_ok.mpr ⟨(), after, countFilter_eq_ok_iff.mpr ⟨total, stillWithin⟩,
        walk_pure_eq_ok.mpr ⟨rfl, rfl⟩⟩

theorem reads_literal {field : String} {item : Json}
    (given : flatMember limits (field, item) =
      (do return [← flatFilter limits field Operator.eq.name item]))
    (notNull : item ≠ .null) (notObject : ∀ pairs, item ≠ .object pairs) :
    Reads limits (flatMember limits (field, item)) (Member (field, item)) List.length := by
  rw [given]
  apply reads_single (reads_flatFilter field Operator.eq.name item)
  intro fs
  constructor
  · intro spelled
    cases spelled with
    | null => exact absurd rfl notNull
    | literal operand => exact ⟨_, rfl, rfl, rfl, operand⟩
    | operators => exact absurd rfl (notObject _)
  · rintro ⟨⟨field, operator, v⟩, rfl, rfl, rfl, operand⟩
    cases v with
    | none =>
      cases operand
      exact absurd rfl notNull
    | some v => exact .literal operand

theorem reads_operators (field : String) (pairs : List (String × Json)) :
    Reads limits (flatMember limits (field, .object pairs)) (Member (field, .object pairs))
      List.length := by
  intro count within fs after
  cases pairs with
  | nil =>
    constructor
    · intro run
      cases run
    · rintro ⟨spelled, _⟩
      cases spelled with
      | literal operand => exact absurd operand not_operand_object
      | operators nonempty => exact absurd rfl nonempty
  | cons pair pairs =>
    have each := reads_mapM (fun operator : String × Json =>
      @reads_flatFilter limits field operator.1 operator.2) (pair :: pairs)
    refine Iff.trans (each count within fs after) ?_
    rw [sizeOfAll_one]
    apply and_congr_left'
    constructor
    · intro each
      exact .operators (List.cons_ne_nil pair pairs) each
    · intro spelled
      cases spelled with
      | literal operand => exact absurd operand not_operand_object
      | operators _ each => exact each

theorem reads_flatMember (member : String × Json) :
    Reads limits (flatMember limits member) (Member member) List.length := by
  obtain ⟨field, item⟩ := member
  cases item with
  | null => exact reads_null field
  | object pairs => exact reads_operators field pairs
  | bool b => exact reads_literal rfl nofun nofun
  | number n => exact reads_literal rfl nofun nofun
  | string s => exact reads_literal rfl nofun nofun
  | array items => exact reads_literal rfl nofun nofun

/-- A flat document is read as the grammar says. -/
theorem reads_flat (members : List (String × Json)) :
    Reads limits (flat limits members)
      (fun t => ∃ parts, List.Forall₂ Member members parts ∧ t = .all parts.flatten)
      Tree.leafCount := by
  have size (parts : List (List Filter)) :
      (Tree.all parts.flatten).leafCount = sizeOfAll List.length parts := by
    rw [Tree.leafCount_eq_length, Tree.leaves_all, List.length_flatten, sizeOfAll]
  intro count within t after
  constructor
  · intro run
    obtain ⟨parts, between, each, run⟩ := walk_bind_eq_ok.mp run
    obtain ⟨rfl, rfl⟩ := walk_pure_eq_ok.mp run
    obtain ⟨spelled, total, stillWithin⟩ :=
      (reads_mapM reads_flatMember members count within parts after).mp each
    exact ⟨⟨parts, spelled, rfl⟩, size parts ▸ total, stillWithin⟩
  · rintro ⟨⟨parts, spelled, rfl⟩, total, stillWithin⟩
    rw [size] at total
    exact walk_bind_eq_ok.mpr ⟨parts, after,
      (reads_mapM reads_flatMember members count within parts after).mpr
        ⟨spelled, total, stillWithin⟩, walk_pure_eq_ok.mpr ⟨rfl, rfl⟩⟩

end Sieve.Document
