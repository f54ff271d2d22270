import Sieve.Proofs.Document.Parsing
import Sieve.Proofs.Document.Refusal
import Sieve.Proofs.Json.Consistent

/-! What is written in a document has its place in the tree, if no key is written again with other
contents and no entry names two operators. -/
namespace Sieve.Document

def KeepsFlat (members : List (String × Json)) (filters : List Filter) : Prop :=
  ∀ m ∈ members, ∃ fs, Member m fs ∧ fs ⊆ filters

def Asks (members : List (String × Json)) (operator : String) : Prop :=
  ∀ m ∈ members, m.1 ∈ ["op", "operator"] →
    ∀ name, Names m.2 name → Text.sameIgnoringCase name operator = true

structure KeepsEntry (members : List (String × Json)) (f : Filter) : Prop where
  keys : ∀ m ∈ members, m.1 ∈ ["field", "op", "operator", "value"]
  field : ∀ m ∈ members, m.1 = "field" → Names m.2 f.field
  operator : Asks members f.operator
  value : ∀ m ∈ members, m.1 = "value" → Operand m.2 f.value

def KeepsConnective (item : Json) (c : Connective) : Prop :=
  item = .null ∨ ∃ s, item = .string s ∧ Text.sameIgnoringCase s c.name = true

def KeepsFilters (item : Json) (filters : List Filter) : Prop :=
  item = .null ∨ ∃ entries, item = .array entries ∧
    List.Forall₂ (fun entry f => ∃ ms, entry = .object ms ∧ KeepsEntry ms f) entries filters

mutual

def KeepsGroup : Json → Tree Filter → Prop
  | .object members, .group c filters groups =>
    (∀ m ∈ members, m.1 ∈ ["operator", "filters", "groups"]) ∧
    (∀ m ∈ members, m.1 = "operator" → KeepsConnective m.2 c) ∧
    (∀ m ∈ members, m.1 = "filters" → KeepsFilters m.2 filters) ∧
    ∀ m ∈ members, m.1 = "groups" →
      m.2 = .null ∨ ∃ objects, m.2 = .array objects ∧ KeepsGroups objects groups
  | _, _ => False

def KeepsGroups : List Json → List (Tree Filter) → Prop
  | [], [] => True
  | object :: objects, g :: groups => KeepsGroup object g ∧ KeepsGroups objects groups
  | _, _ => False

end

def WrittenTree (members : List (String × Json)) : Prop :=
  ∃ m ∈ members, m.1 ∈ ["filters", "groups"] ∧ ∃ items, m.2 = .array items

/-- Whether nothing that is written in a document is left out of a tree. -/
inductive Keeps : Json → Tree Filter → Prop
  | flat {members : List (String × Json)} {t : Tree Filter} (form : ¬WrittenTree members)
      (kept : KeepsFlat members t.leaves) : Keeps (.object members) t
  | tree {members : List (String × Json)} {t : Tree Filter} (form : WrittenTree members)
      (kept : KeepsGroup (.object members) t) : Keeps (.object members) t

inductive HasEntry : Json → List (String × Json) → Prop
  | here {members ms : List (String × Json)} {entries : List Json}
      (list : ("filters", .array entries) ∈ members) (entry : .object ms ∈ entries) :
      HasEntry (.object members) ms
  | deeper {members ms : List (String × Json)} {objects : List Json} {object : Json}
      (list : ("groups", .array objects) ∈ members) (group : object ∈ objects)
      (entry : HasEntry object ms) : HasEntry (.object members) ms

/-- A document that means one thing only: no key is written again with other contents, and no entry
names two operators. -/
structure Unambiguous (w : Json) : Prop where
  consistent : w.Consistent
  operators : ∀ ms, HasEntry w ms → ∃ operator, Asks ms operator

section
variable {w : Json}

theorem names_of_settled {name : String} (named : Names w.settled name) : Names w name := by
  obtain ⟨s, same, visible, trimmed⟩ := named
  exact ⟨s, Json.eq_string_of_settled same, visible, trimmed⟩

theorem element_of_settled {v : RawValue} (element : Element w.settled v) : Element w v := by
  generalize same : w.settled = j at element
  cases element with
  | bool b => cases Json.eq_bool_of_settled same; exact .bool b
  | number n => cases Json.eq_number_of_settled same; exact .number n
  | string s => cases Json.eq_string_of_settled same; exact .string s

/-- No operand has an object in it, so an operand is written as it stands. -/
theorem operand_of_settled {v : Option RawValue} (operand : Operand w.settled v) : Operand w v := by
  generalize same : w.settled = j at operand
  cases operand with
  | null => cases Json.eq_null_of_settled same; exact .null
  | single element => exact .single (element_of_settled (same ▸ element))
  | list elements =>
    obtain ⟨items, rfl, rfl⟩ := Json.exists_of_settled_array same
    rw [List.forall₂_map_left_iff] at elements
    exact .list (elements.imp fun _ _ => element_of_settled)

end

theorem exists_forall₂ {α β : Type} {R : α → β → Prop} {as : List α} {bs : List β}
    (each : ∀ a ∈ as, ∃ b ∈ bs, R a b) : ∃ cs, List.Forall₂ R as cs ∧ cs ⊆ bs := by
  induction as with
  | nil => exact ⟨[], .nil, List.nil_subset bs⟩
  | cons a as ih =>
    obtain ⟨⟨b, member, here⟩, later⟩ := List.forall_mem_cons.mp each
    obtain ⟨cs, related, among⟩ := ih later
    exact ⟨b :: cs, .cons here related, List.cons_subset.mpr ⟨member, among⟩⟩

/-- A member whose operators agree loses none of its filters. -/
theorem member_of_settled {field : String} {w : Json} {fs : List Filter} (consistent : w.Consistent)
    (member : Member (field, w.settled) fs) : ∃ gs, Member (field, w) gs ∧ gs ⊆ fs := by
  generalize same : w.settled = j at member
  cases member with
  | null =>
    cases Json.eq_null_of_settled same
    exact ⟨_, .null field, List.Subset.refl _⟩
  | literal operand => exact ⟨_, .literal (operand_of_settled (same ▸ operand)), List.Subset.refl _⟩
  | operators nonempty each =>
    obtain ⟨pairs, rfl, rfl⟩ := Json.exists_of_settled_object same
    rw [Json.Consistent] at consistent
    have settles := Json.settles_collapse consistent.1
    have kept (pair : String × Json) (written : pair ∈ pairs) :
        ∃ f ∈ fs, f.field = field ∧ f.operator = pair.1 ∧ Operand pair.2 f.value := by
      obtain ⟨f, among, ofField, asked, operand⟩ := Tree.exists_of_mem_left each (settles.mem written)
      exact ⟨f, among, ofField, asked, operand_of_settled operand⟩
    obtain ⟨gs, spelled, among⟩ := exists_forall₂ kept
    refine ⟨gs, .operators ?_ spelled, among⟩
    rintro rfl
    exact nonempty rfl

section
variable {written members : List (String × Json)} (settles : Json.Settles written members)
include settles

theorem exists_asked {f : Filter} {m : String × Json} (entry : Entry members f)
    (member : m ∈ written) (key : m.1 ∈ ["op", "operator"]) :
    ∃ n ∈ written, n.1 ∈ ["op", "operator"] ∧ Names n.2 f.operator := by
  have operator := entry.operator
  cases first : Json.member? members "op" with
  | some item =>
    obtain ⟨n, inEntry, underOp, same⟩ := settles.exists_of_member? first
    rw [first, Option.some_or, ← same] at operator
    exact ⟨n, inEntry, by simp [underOp], names_of_settled operator⟩
  | none =>
    have notUnderOp : m.1 ≠ "op" := by
      intro underOp
      rw [settles.member?_eq member underOp] at first
      cases first
    have underOperator := (List.mem_pair.mp key).resolve_left notUnderOp
    rw [first, settles.member?_eq member underOperator, Option.none_or] at operator
    exact ⟨m, member, key, names_of_settled operator⟩

theorem keepsEntry_of_entry {f : Filter} (entry : Entry members f)
    (one : ∃ operator, Asks written operator) : KeepsEntry written f := by
  constructor
  case keys =>
    intro m member
    exact entry.keys (m.1, m.2.settled) (settles.mem member)
  case field =>
    intro m member key
    obtain ⟨item, given, named⟩ := entry.field
    rw [settles.member?_eq member key, Option.some_inj] at given
    exact names_of_settled (given ▸ named)
  case operator =>
    intro m member key name named
    obtain ⟨n, inEntry, underEither, filters⟩ := exists_asked settles entry member key
    obtain ⟨operator, asks⟩ := one
    have same := asks m member key name named
    have sameFilters := asks n inEntry underEither f.operator filters
    rw [Text.sameIgnoringCase_comm] at sameFilters
    exact Text.sameIgnoringCase_trans same sameFilters
  case value =>
    intro m member key
    have value := entry.value
    rw [settles.member?_eq member key] at value
    exact operand_of_settled value

theorem keepsConnective_of_joined {c : Connective} (joined : Joined members c) :
    ∀ m ∈ written, m.1 = "operator" → KeepsConnective m.2 c := by
  intro m member key
  have found := settles.member?_eq member key
  cases joined with
  | absent missing =>
    rw [missing] at found
    cases found
  | null null =>
    rw [null, Option.some_inj] at found
    exact .inl (Json.eq_null_of_settled found.symm)
  | named given same =>
    rw [given, Option.some_inj] at found
    exact .inr ⟨_, Json.eq_string_of_settled found.symm, same⟩

theorem list_of_listed {key : String} {items : List Json} (listed : Listed members key items) :
    ∀ m ∈ written, m.1 = key →
      m.2 = .null ∨ ∃ list, m.2 = .array list ∧ items = list.map Json.settled := by
  intro m member same
  have found := settles.member?_eq member same
  cases listed with
  | absent missing =>
    rw [missing] at found
    cases found
  | null null =>
    rw [null, Option.some_inj] at found
    exact .inl (Json.eq_null_of_settled found.symm)
  | list given =>
    rw [given, Option.some_inj] at found
    exact .inr (Json.exists_of_settled_array found.symm)

end

theorem keepsFilters_of_entries {entries : List Json} {filters : List Filter}
    (spelled : List.Forall₂ (fun entry f => ∃ ms, entry = .object ms ∧ Entry ms f)
      (entries.map Json.settled) filters)
    (consistent : ∀ entry ∈ entries, entry.Consistent)
    (one : ∀ ms, .object ms ∈ entries → ∃ operator, Asks ms operator) :
    List.Forall₂ (fun entry f => ∃ ms, entry = .object ms ∧ KeepsEntry ms f) entries filters := by
  rw [List.forall₂_map_left_iff] at spelled
  have clear (entry : Json) (member : entry ∈ entries) :
      entry.Consistent ∧ ∀ ms, entry = .object ms → ∃ operator, Asks ms operator :=
    ⟨consistent entry member, fun ms same => one ms (same ▸ member)⟩
  refine ((List.forall₂_and_left _ _).mpr ⟨clear, spelled⟩).imp ?_
  rintro entry f ⟨⟨agree, oneOperator⟩, members, same, entrySpelled⟩
  obtain ⟨written, rfl, rfl⟩ := Json.exists_of_settled_object same
  rw [Json.Consistent] at agree
  exact ⟨written, rfl, keepsEntry_of_entry (Json.settles_collapse agree.1) entrySpelled
    (oneOperator written rfl)⟩

namespace Unambiguous

variable {members : List (String × Json)} (clear : Unambiguous (.object members))
include clear

theorem settles : Json.Settles members (Json.collapse (Json.settledMembers members)) := by
  have consistent := clear.consistent
  rw [Json.Consistent] at consistent
  exact Json.settles_collapse consistent.1

theorem items_consistent {key : String} {items : List Json}
    (list : (key, .array items) ∈ members) : ∀ item ∈ items, item.Consistent := by
  have consistent := clear.consistent
  rw [Json.Consistent] at consistent
  have ofList := Json.membersConsistent_iff.mp consistent.2 _ list
  rw [Json.Consistent] at ofList
  exact Json.itemsConsistent_iff.mp ofList

theorem groups {objects : List Json} (list : ("groups", .array objects) ∈ members) :
    ∀ object ∈ objects, Unambiguous object := fun object member =>
  ⟨clear.items_consistent list object member,
    fun ms entry => clear.operators ms (.deeper list member entry)⟩

end Unambiguous

mutual

theorem keepsGroup_of_group : (t : Tree Filter) → {w : Json} → Group w.settled t → Unambiguous w →
    KeepsGroup w t
  | .group c filters groups, w, spelled, clear => by
    generalize same : w.settled = j at spelled
    cases spelled with
    | object keys joined entriesListed filtersSpelled objectsListed groupsSpelled =>
      obtain ⟨written, rfl, rfl⟩ := Json.exists_of_settled_object same
      have settles := clear.settles
      refine ⟨fun m member => keys (m.1, m.2.settled) (settles.mem member),
        keepsConnective_of_joined settles joined, ?_, ?_⟩
      · rintro ⟨_, item⟩ member rfl
        rcases list_of_listed settles entriesListed _ member rfl with null | ⟨entries, rfl, rfl⟩
        · exact .inl null
        · exact .inr ⟨entries, rfl, keepsFilters_of_entries filtersSpelled
            (clear.items_consistent member) fun ms entry => clear.operators ms (.here member entry)⟩
      · rintro ⟨_, item⟩ member rfl
        rcases list_of_listed settles objectsListed _ member rfl with null | ⟨objects, rfl, rfl⟩
        · exact .inl null
        · rw [List.forall₂_map_left_iff] at groupsSpelled
          exact .inr ⟨objects, rfl,
            keepsGroups_of_groups groups groupsSpelled (clear.groups member)⟩

theorem keepsGroups_of_groups : (groups : List (Tree Filter)) → {objects : List Json} →
    List.Forall₂ (fun object g => Group object.settled g) objects groups →
    (∀ object ∈ objects, Unambiguous object) → KeepsGroups objects groups
  | [], _, .nil, _ => trivial
  | g :: groups, _, .cons spelled others, clear =>
    have ⟨here, later⟩ := List.forall_mem_cons.mp clear
    ⟨keepsGroup_of_group g spelled here, keepsGroups_of_groups groups others later⟩

end

theorem writtenTree_iff {members : List (String × Json)} (clear : Unambiguous (.object members)) :
    WrittenTree members ↔ TreeForm (Json.collapse (Json.settledMembers members)) := by
  have settles := clear.settles
  constructor
  · rintro ⟨m, member, key, items, same⟩
    have found := settles.kept m member
    rw [same, Json.settled] at found
    exact ⟨m.1, key, _, found⟩
  · rintro ⟨key, isKey, items, given⟩
    obtain ⟨m, member, rfl, same⟩ := settles.exists_of_member? given
    obtain ⟨written, list, _⟩ := Json.exists_of_settled_array same
    exact ⟨m, member, isKey, written, list⟩

/-- Nothing is left out of the tree that is spelled by a document that means one thing only. -/
theorem keeps_of_spells {w : Json} {t : Tree Filter} (spells : Spells w.settled t)
    (clear : Unambiguous w) : Keeps w t := by
  generalize same : w.settled = j at spells
  cases spells with
  | flat form each =>
    obtain ⟨members, rfl, rfl⟩ := Json.exists_of_settled_object same
    refine .flat (mt (writtenTree_iff clear).mp form) fun m member => ?_
    have consistent := clear.consistent
    rw [Json.Consistent] at consistent
    obtain ⟨fs, part, spelled⟩ := Tree.exists_of_mem_left each (clear.settles.mem member)
    obtain ⟨gs, kept, among⟩ :=
      member_of_settled (Json.membersConsistent_iff.mp consistent.2 m member) spelled
    refine ⟨gs, kept, fun f inPart => ?_⟩
    rw [Tree.leaves_all]
    exact List.mem_flatten_of_mem part (among inPart)
  | tree form group =>
    obtain ⟨members, rfl, rfl⟩ := Json.exists_of_settled_object same
    exact .tree ((writtenTree_iff clear).mpr form) (keepsGroup_of_group t (same ▸ group) clear)

variable {limits : Limits} {text : String} {t : Tree Filter}

theorem parse_eq_ok_iff : parse limits text = .ok t ↔
    text.utf8ByteSize ≤ limits.maxInputBytes ∧
      ∃ w, Json.transcribe text = .ok w ∧ ofJson limits w.settled = .ok t := by
  rw [parse_eq_ok_iff_ofJson, Json.parse_eq]
  cases Json.transcribe text with
  | error fault => simp [Except.map]
  | ok w => simp [Except.map]

/-- What is made of a text is what is spelled by the value that it stands for, and nothing that is
written in the text is left out if it means one thing only. Every other outcome is a refusal of the
text as malformed. -/
theorem parse_keeps (limits : Limits) (text : String) :
    (∀ tree, parse limits text = .ok tree → ∃ w, Json.transcribe text = .ok w ∧
        Spells w.settled tree ∧ (Unambiguous w → Keeps w tree)) ∧
      ∀ e, parse limits text = .error e → e.kind = .invalidFormat := by
  refine ⟨fun tree read => ?_, parse_malformedOnly limits text⟩
  obtain ⟨_, w, written, read⟩ := parse_eq_ok_iff.mp read
  have spells : Spells w.settled tree := (ofJson_eq_ok_iff.mp read).1
  exact ⟨w, written, spells, keeps_of_spells spells⟩

/-- An operator under both keys, and a connective that is written again. -/
theorem parse_keeps_repeated :
    let entryText := "\x7b\"field\": \"year\", \"op\": \"gte\", \"operator\": \"GTE\"\x7d"
    let text := "\x7b\"operator\": \"or\", \"filters\": [" ++ entryText ++ "], \"operator\": \"or\"\x7d"
    let tree : Tree Filter := .group .or [⟨"year", "gte", none⟩] []
    parse .standard text = .ok tree ∧
      ∃ w, Json.transcribe text = .ok w ∧ Unambiguous w ∧ Keeps w tree := by
  intro entryText text tree
  let entry : List (String × Json) :=
    [("field", .string "year"), ("op", .string "gte"), ("operator", .string "GTE")]
  let members : List (String × Json) := [("operator", .string "or"),
    ("filters", .array [.object entry]), ("operator", .string "or")]
  let w : Json := .object members
  have written : Json.transcribe text = .ok w := by decide +kernel
  have read : parse .standard text = .ok tree :=
    parse_eq_ok_iff.mpr ⟨by decide +kernel, w, written, rfl⟩
  have asks : Asks entry "gte" := by
    intro m member key name named
    obtain ⟨s, same, _, rfl⟩ := named
    simp only [entry, List.mem_cons, List.not_mem_nil, or_false] at member
    rcases member with rfl | rfl | rfl
    · exact absurd key (by decide)
    · cases same
      decide
    · cases same
      decide
  have clear : Unambiguous w := by
    constructor
    · simp [w, members, entry, Json.Consistent, Json.ItemsConsistent, Json.MembersConsistent, Json.Agree]
    · intro ms hasEntry
      change HasEntry (.object members) ms at hasEntry
      cases hasEntry with
      | here list inList =>
        have same : ms = entry := by simp_all [members]
        exact ⟨"gte", same ▸ asks⟩
      | deeper list => simp [members] at list
  obtain ⟨other, writtenOther, _, kept⟩ := (parse_keeps .standard text).1 tree read
  rw [written, Except.ok.injEq] at writtenOther
  subst writtenOther
  exact ⟨read, w, written, clear, kept clear⟩

/-- What a text may lose: the operators that stood under a repeated key before, and the operator under
the second key of an entry. -/
theorem parse_drops :
    let repeated := "\x7b\"a\": \x7b\"eq\": 1\x7d, \"a\": \x7b\"gt\": 2\x7d\x7d"
    let entryText := "\x7b\"field\": \"a\", \"op\": \"eq\", \"operator\": \"gt\"\x7d"
    let twoOperators := "\x7b\"filters\": [" ++ entryText ++ "]\x7d"
    (∃ tree w, parse .standard repeated = .ok tree ∧ Json.transcribe repeated = .ok w ∧
        ¬Keeps w tree) ∧
      ∃ tree w, parse .standard twoOperators = .ok tree ∧ Json.transcribe twoOperators = .ok w ∧
        ¬Keeps w tree := by
  intro repeated entryText twoOperators
  constructor
  · let members : List (String × Json) :=
      [("a", .object [("eq", .number (.whole 1))]), ("a", .object [("gt", .number (.whole 2))])]
    let tree : Tree Filter := .all [⟨"a", "gt", some (.number (.whole 2))⟩]
    have written : Json.transcribe repeated = .ok (.object members) := by decide +kernel
    have read : parse .standard repeated = .ok tree :=
      parse_eq_ok_iff.mpr ⟨by decide +kernel, _, written, rfl⟩
    refine ⟨tree, _, read, written, fun kept => ?_⟩
    cases kept with
    | flat _ kept =>
      obtain ⟨fs, member, among⟩ := kept _ List.mem_cons_self
      cases member with
      | literal operand => exact not_operand_object operand
      | operators _ each =>
        cases each with
        | cons spelled _ =>
          have inTree := among List.mem_cons_self
          rw [Tree.leaves_all, List.mem_singleton] at inTree
          rw [inTree] at spelled
          exact absurd spelled.2.1 (by decide)
    | tree form => simp [WrittenTree, members] at form
  · let entry : List (String × Json) :=
      [("field", .string "a"), ("op", .string "eq"), ("operator", .string "gt")]
    let list : String × Json := ("filters", .array [.object entry])
    let tree : Tree Filter := .all [⟨"a", "eq", none⟩]
    have written : Json.transcribe twoOperators = .ok (.object [list]) := by decide +kernel
    have read : parse .standard twoOperators = .ok tree :=
      parse_eq_ok_iff.mpr ⟨by decide +kernel, _, written, rfl⟩
    refine ⟨tree, _, read, written, fun kept => ?_⟩
    cases kept with
    | flat form => exact form ⟨list, List.mem_cons_self, by decide, _, rfl⟩
    | tree _ kept =>
      obtain ⟨_, _, filters, _⟩ := kept
      obtain null | ⟨entries, same, each⟩ := filters list List.mem_cons_self rfl
      · cases null
      · cases same
        cases each with
        | cons spelled _ =>
          obtain ⟨ms, same, keptEntry⟩ := spelled
          cases same
          have second : ("operator", Json.string "gt") ∈ entry := by simp [entry]
          have named : Names (.string "gt") "gt" := ⟨"gt", rfl, ⟨'g', by decide, by decide⟩, by decide⟩
          exact absurd (keptEntry.operator _ second (by decide) "gt" named) (by decide)

end Sieve.Document
