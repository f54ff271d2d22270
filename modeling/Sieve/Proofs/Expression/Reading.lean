import Sieve.Expression
import Sieve.Proofs.Outcome
import Sieve.Proofs.Text.Pieces
import Sieve.Proofs.Text.Trimming
import Sieve.Proofs.Tree.Walk

/-! How expressions are read: the two names between the colons, and the value behind them. -/
namespace Sieve.Expression

def NamesList (operator : String) : Prop :=
  Text.sameIgnoringCase "in" operator = true ∨ Text.sameIgnoringCase "nin" operator = true

theorem namesList_iff {operator : String} :
    NamesList operator ↔
      ((Operator.ofName? operator).map Operator.takesList).getD false = true := by
  constructor
  · rintro (same | same)
    · rw [← Operator.ofName?_congr same]
      decide +kernel
    · rw [← Operator.ofName?_congr same]
      decide +kernel
  · intro takes
    cases found : Operator.ofName? operator with
    | none =>
      rw [found] at takes
      cases takes
    | some op =>
      rw [found] at takes
      have same := Operator.ofName?_eq_some_iff.mp found
      cases op <;> cases takes
      · exact .inl same
      · exact .inr same

def elementsOf (written : List Char) : List String :=
  (Text.pieces ',' written).map fun piece => String.ofList (Text.trim piece)

/-- The value that stands behind the second colon: none if there is nothing, the elements of a list
under an operator that takes one, and otherwise the text as it stands. -/
inductive Valued (operator : String) : List Char → Option RawValue → Prop
  | absent : Valued operator [] none
  | text {written : List Char} (single : ¬NamesList operator) (nonempty : written ≠ []) :
      Valued operator written (some (.text (String.ofList written)))
  | list {written : List Char} (list : NamesList operator) (nonempty : written ≠ [])
      (visible : ∀ piece ∈ Text.pieces ',' written, Text.trim piece ≠ []) :
      Valued operator written (some (.list ((elementsOf written).map .text)))

theorem Valued.eq_none {operator : String} {value : Option RawValue}
    (valued : Valued operator [] value) : value = none := by
  cases valued with
  | absent => rfl
  | text _ nonempty => exact absurd rfl nonempty
  | list _ nonempty => exact absurd rfl nonempty

theorem listElements_eq_ok_iff {field : String} {written : List Char} {items : List RawValue} :
    listElements field written = .ok items ↔
      (∀ piece ∈ Text.pieces ',' written, Text.trim piece ≠ []) ∧
        items = (elementsOf written).map .text := by
  rw [elementsOf, List.map_map]
  unfold listElements
  generalize Text.pieces ',' written = pieces
  induction pieces generalizing items with
  | nil =>
    rw [List.mapM_nil, List.map_nil]
    constructor
    · intro read
      cases read
      exact ⟨by simp, rfl⟩
    · rintro ⟨_, rfl⟩
      rfl
  | cons piece rest ih =>
    rw [List.mapM_cons, List.forall_mem_cons, List.map_cons]
    by_cases blank : Text.trim piece = []
    · simp [blank, bind, Except.bind]
    · constructor
      · intro read
        obtain ⟨item, first, read⟩ := bind_eq_ok.mp read
        obtain ⟨others, later, read⟩ := bind_eq_ok.mp read
        obtain ⟨visible, rfl⟩ := ih.mp later
        rw [if_neg (by simpa using blank)] at first
        cases first
        cases read
        exact ⟨⟨blank, visible⟩, rfl⟩
      · rintro ⟨⟨_, visible⟩, rfl⟩
        refine bind_eq_ok.mpr ⟨_, if_neg (by simpa using blank), ?_⟩
        exact bind_eq_ok.mpr ⟨_, ih.mpr ⟨visible, rfl⟩, rfl⟩

theorem valueOf_eq_ok_iff {field operator : String} {written : List Char}
    {value : Option RawValue} :
    valueOf field operator written = .ok value ↔ Valued operator written value := by
  unfold valueOf
  by_cases empty : written = []
  · subst empty
    constructor
    · intro read
      cases read
      exact .absent
    · intro valued
      rw [valued.eq_none]
      rfl
  · rw [if_neg (by simpa using empty)]
    constructor
    · intro read
      split at read
      next list =>
        obtain ⟨items, elements, rfl⟩ := map_eq_ok.mp read
        obtain ⟨visible, rfl⟩ := listElements_eq_ok_iff.mp elements
        exact .list (namesList_iff.mpr list) empty visible
      next single =>
        cases read
        exact .text (fun list => single (namesList_iff.mp list)) empty
    · intro valued
      cases valued with
      | absent => exact absurd rfl empty
      | text single => rw [if_neg fun list => single (namesList_iff.mpr list)]
      | list list _ visible =>
        rw [if_pos (namesList_iff.mp list)]
        exact map_eq_ok.mpr ⟨_, listElements_eq_ok_iff.mpr ⟨visible, rfl⟩, rfl⟩

/-- How an expression is made up: a name, an operator, and behind a second colon perhaps a value. -/
structure Parts (expression : String) (field operator : List Char) (value : Option (List Char)) :
    Prop where
  whole : expression.toList = field ++ ':' :: (operator ++ (value.map (':' :: ·)).getD [])
  field : ':' ∉ field
  operator : ':' ∉ operator

namespace Parts

variable {expression : String} {field operator : List Char} {value : Option (List Char)}
  (parts : Parts expression field operator value)
include parts

theorem cut_field : Text.cut ':' expression.toList =
    (field, some (operator ++ (value.map (':' :: ·)).getD [])) :=
  Text.cut_eq_some_iff.mpr ⟨parts.whole, parts.field⟩

theorem cut_operator :
    Text.cut ':' (operator ++ (value.map (':' :: ·)).getD []) = (operator, value) := by
  cases value with
  | none => exact Text.cut_eq_none_iff.mpr ⟨List.append_nil operator, parts.operator⟩
  | some value => exact Text.cut_eq_some_iff.mpr ⟨rfl, parts.operator⟩

theorem unique {otherField otherOperator : List Char} {otherValue : Option (List Char)}
    (others : Parts expression otherField otherOperator otherValue) :
    field = otherField ∧ operator = otherOperator ∧ value = otherValue := by
  have first := parts.cut_field.symm.trans others.cut_field
  rw [Prod.mk.injEq, Option.some.injEq] at first
  have second := parts.cut_operator
  rw [first.2, others.cut_operator, Prod.mk.injEq] at second
  exact ⟨first.1, second.1.symm, second.2.symm⟩

end Parts

/-- An expression is read where both names have something in them, and the value can be read. -/
theorem parseUnlimited_eq_ok_iff {expression : String} {f : Filter} :
    parseUnlimited expression = .ok f ↔
      ∃ field operator value, Parts expression field operator value ∧
        Text.trim field ≠ [] ∧ Text.trim operator ≠ [] ∧
        f.field = String.ofList (Text.trim field) ∧
        f.operator = String.ofList (Text.trim operator) ∧
        Valued f.operator (value.getD []) f.value := by
  unfold parseUnlimited
  constructor
  · intro read
    split at read
    next => cases read
    next field rest first =>
      obtain ⟨whole, noColon⟩ := Text.cut_eq_some_iff.mp first
      cases second : Text.cut ':' rest with
      | mk operator value =>
        simp only [second] at read
        split at read
        next => cases read
        next visible =>
          obtain ⟨given, valued, rfl⟩ := map_eq_ok.mp read
          simp only [Bool.or_eq_true, List.isEmpty_iff, not_or] at visible
          refine ⟨field, operator, value, ?_, visible.1, visible.2, rfl, rfl,
            valueOf_eq_ok_iff.mp valued⟩
          cases value with
          | none =>
            obtain ⟨rfl, absent⟩ := Text.cut_eq_none_iff.mp second
            exact ⟨by rw [whole]; simp, noColon, absent⟩
          | some value =>
            obtain ⟨rfl, absent⟩ := Text.cut_eq_some_iff.mp second
            exact ⟨whole, noColon, absent⟩
  · rintro ⟨field, operator, value, parts, fieldVisible, operatorVisible, fieldIs, operatorIs,
      valued⟩
    simp only [parts.cut_field, parts.cut_operator]
    rw [if_neg (by simp [fieldVisible, operatorVisible]), ← fieldIs, ← operatorIs]
    exact map_eq_ok.mpr ⟨f.value, valueOf_eq_ok_iff.mpr valued, rfl⟩

theorem parse_eq_ok_iff {limits : Limits} {expression : String} {f : Filter} :
    parse limits expression = .ok f ↔
      expression.utf8ByteSize ≤ limits.maxInputBytes ∧ parseUnlimited expression = .ok f := by
  unfold parse
  split
  next beyond => simp [Nat.not_le.mpr beyond]
  next within => simp [Nat.not_lt.mp within]

theorem parseAll_eq_ok_iff {limits : Limits} {expressions : List String} {tree : Tree Filter} :
    parseAll limits expressions = .ok tree ↔
      expressions.length ≤ limits.maxFilters ∧ ∃ filters,
        List.Forall₂ (fun e f => parse limits e = .ok f) expressions filters ∧
          tree = .all filters := by
  unfold parseAll
  split
  next beyond => simp [Nat.not_le.mpr beyond]
  next within =>
    rw [map_eq_ok]
    constructor
    · rintro ⟨filters, each, rfl⟩
      exact ⟨Nat.not_lt.mp within, filters, Tree.forall₂_of_mapM each, rfl⟩
    · rintro ⟨_, filters, each, rfl⟩
      exact ⟨filters, Tree.mapM_of_forall₂ each, rfl⟩

end Sieve.Expression
