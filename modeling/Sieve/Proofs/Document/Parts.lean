import Sieve.Proofs.Document.Grammar
import Sieve.Proofs.Text.Trimming
import Sieve.Proofs.Tree.Walk

/-! The parts of documents that are read without counting filters: operands, names, the members of
an object in a list of filters, and the connective and the lists of a group. -/
namespace Sieve.Document

variable {field : String} {item : Json} {members : List (String × Json)}

theorem elements_of_each {items : List Json} {values : List RawValue}
    (each : List.Forall₂ Element items values) : elements field items = .ok values := by
  induction each with
  | nil => rfl
  | cons element _ ih =>
    cases element <;> rw [elements, ih] <;> rfl

theorem each_of_elements {items : List Json} {values : List RawValue}
    (read : elements field items = .ok values) : List.Forall₂ Element items values := by
  induction items generalizing values with
  | nil =>
    cases read
    exact .nil
  | cons item rest ih =>
    -- A list is read as an operand before it is refused as an element.
    rw [elements] at read
    split at read
    · cases read
    · cases read
    · cases read
    next v notList single =>
      split at read
      · cases read
      next others done =>
        cases read
        refine .cons ?_ (ih done)
        cases item <;> rw [operand] at single
        case bool b => cases single; exact .bool b
        case number n => cases single; exact .number n
        case string s => cases single; exact .string s
        case null => cases single
        case object => cases single
        case array items =>
          split at single
          · cases single
          · cases single
            exact absurd rfl (notList _)

theorem operand_eq_ok_iff {v : Option RawValue} :
    operand field item = .ok v ↔ Operand item v := by
  constructor
  · intro read
    cases item <;> rw [operand] at read
    case null => cases read; exact .null
    case bool b => cases read; exact .single (.bool b)
    case number n => cases read; exact .single (.number n)
    case string s => cases read; exact .single (.string s)
    case object => cases read
    case array items =>
      split at read
      · cases read
      next values done =>
        cases read
        exact .list (each_of_elements done)
  · intro spelled
    cases spelled with
    | null => rfl
    | single element => cases element <;> rfl
    | list each => rw [operand, elements_of_each each]

theorem nonBlank?_eq_some_iff {name : String} : nonBlank? item = some name ↔ Names item name := by
  cases item with
  | string s =>
    have blank : (Text.trimmed s).isEmpty = true ↔ ∀ c ∈ s.toList, Text.isBlank c = true := by
      rw [← Text.trim_eq_nil_iff, String.isEmpty_iff, Text.trimmed, String.ofList_eq_empty_iff]
    by_cases empty : (Text.trimmed s).isEmpty = true
    · have allBlank := blank.mp empty
      simp only [nonBlank?, empty, if_true, reduceCtorEq, false_iff]
      rintro ⟨_, ⟨⟩, ⟨c, member, visible⟩, _⟩
      rw [allBlank c member] at visible
      cases visible
    · have visible : ∃ c ∈ s.toList, Text.isBlank c = false := by
        by_contra none
        push Not at none
        exact empty (blank.mpr fun c member => by simpa using none c member)
      simp only [nonBlank?, empty, Bool.false_eq_true, if_false, Option.some.injEq]
      constructor
      · rintro rfl
        exact ⟨s, rfl, visible, rfl⟩
      · rintro ⟨_, ⟨⟩, _, rfl⟩
        rfl
  | _ => simp [nonBlank?, Names]

theorem checkKeys_eq_ok_iff {known : List String} {part : DocumentPart} {u : Unit} :
    checkKeys known part members = .ok u ↔ ∀ m ∈ members, m.1 ∈ known := by
  unfold checkKeys
  cases search : members.find? fun m => !known.contains m.1 with
  | none => simpa [List.find?_eq_none] using search
  | some m =>
    have unknown : m.1 ∉ known := by simpa using List.find?_some search
    simp only [reduceCtorEq, false_iff]
    intro all
    exact unknown (all m (List.mem_of_find?_eq_some search))

theorem not_or_of_and {s : String} (same : Text.sameIgnoringCase s "and" = true) :
    Text.sameIgnoringCase s "or" = false := by
  have letters : s.toList.map Char.toLower = "and".toList.map Char.toLower := beq_iff_eq.mp same
  rw [Text.sameIgnoringCase, letters]
  decide

theorem connective_eq_ok_iff {c : Connective} : connective members = .ok c ↔ Joined members c := by
  unfold connective
  constructor
  · intro read
    split at read
    next missing =>
      cases read
      exact .absent missing
    next null =>
      cases read
      exact .null null
    next s given =>
      split at read
      next same =>
        cases read
        exact .named given same
      next =>
        split at read
        next same =>
          cases read
          exact .named given same
        next => cases read
    next => cases read
  · intro joined
    cases joined with
    | absent missing => simp [missing]
    | null null => simp [null]
    | @named s c given same =>
      cases c with
      | and => simp [given, same]
      | or =>
        have other : Text.sameIgnoringCase s "and" ≠ true := by
          intro both
          rw [Connective.name, not_or_of_and both] at same
          cases same
        rw [Connective.name] at same
        simp [given, same, Connective.name, other]

theorem fieldOf_eq_ok_iff {name : String} :
    fieldOf members = .ok name ↔
      ∃ item, Json.member? members "field" = some item ∧ Names item name := by
  unfold fieldOf
  cases found : (Json.member? members "field").bind nonBlank? with
  | none =>
    simp only [reduceCtorEq, false_iff]
    rintro ⟨item, given, names⟩
    rw [given, Option.bind_some, nonBlank?_eq_some_iff.mpr names] at found
    cases found
  | some other =>
    obtain ⟨item, given, read⟩ := Option.bind_eq_some_iff.mp found
    simp [given, ← nonBlank?_eq_some_iff, read]

theorem operatorOf_eq_ok_iff {name : String} :
    operatorOf field members = .ok name ↔
      match (Json.member? members "op").or (Json.member? members "operator") with
      | none => name = "eq"
      | some item => Names item name := by
  unfold operatorOf
  cases (Json.member? members "op").or (Json.member? members "operator") with
  | none => simp [Operator.name, eq_comm]
  | some item =>
    simp only [← nonBlank?_eq_some_iff]
    cases nonBlank? item <;> simp

theorem filter_eq : filter members =
    checkKeys filterKeys .filter members >>= fun _ =>
      fieldOf members >>= fun field => operatorOf field members >>= fun operator =>
        (match Json.member? members "value" with
          | some item => operand field item
          | none => .ok none) >>= fun value => .ok ⟨field, operator, value⟩ := by
  unfold filter
  cases Json.member? members "value" <;> rfl

theorem filter_eq_ok_iff {f : Filter} : filter members = .ok f ↔ Entry members f := by
  obtain ⟨field, operator, value⟩ := f
  have given : (match Json.member? members "value" with
        | some item => operand field item
        | none => .ok none) = .ok value ↔
      match Json.member? members "value" with
      | none => value = none
      | some item => Operand item value := by
    cases Json.member? members "value" with
    | none => simp [eq_comm]
    | some item => exact operand_eq_ok_iff
  rw [filter_eq]
  constructor
  · intro read
    obtain ⟨_, keys, read⟩ := bind_eq_ok.mp read
    obtain ⟨_, named, read⟩ := bind_eq_ok.mp read
    obtain ⟨_, asked, read⟩ := bind_eq_ok.mp read
    obtain ⟨_, valued, read⟩ := bind_eq_ok.mp read
    cases read
    exact ⟨checkKeys_eq_ok_iff.mp keys, fieldOf_eq_ok_iff.mp named, operatorOf_eq_ok_iff.mp asked,
      given.mp valued⟩
  · intro entry
    refine bind_eq_ok.mpr ⟨(), checkKeys_eq_ok_iff.mpr entry.keys, ?_⟩
    refine bind_eq_ok.mpr ⟨field, fieldOf_eq_ok_iff.mpr entry.field, ?_⟩
    refine bind_eq_ok.mpr ⟨operator, operatorOf_eq_ok_iff.mpr entry.operator, ?_⟩
    exact bind_eq_ok.mpr ⟨value, given.mpr entry.value, rfl⟩

theorem objectsUnder_eq_ok_iff {key : String} {objects : List (List (String × Json))} :
    objectsUnder key members = .ok objects ↔
      ∃ items, Listed members key items ∧
        List.Forall₂ (fun item ms => item = .object ms) items objects := by
  unfold objectsUnder
  constructor
  · intro read
    split at read
    next missing =>
      cases read
      exact ⟨[], .absent missing, .nil⟩
    next null =>
      cases read
      exact ⟨[], .null null, .nil⟩
    next items given =>
      refine ⟨items, .list given, (Tree.forall₂_of_mapM read).imp fun item ms one => ?_⟩
      cases item <;> cases one
      rfl
    next => cases read
  · rintro ⟨items, listed, each⟩
    cases listed with
    | absent missing =>
      cases each
      simp [missing]
    | null null =>
      cases each
      simp [null]
    | list given =>
      simp only [given]
      apply Tree.mapM_of_forall₂
      apply each.imp
      rintro _ ms rfl
      rfl

end Sieve.Document
