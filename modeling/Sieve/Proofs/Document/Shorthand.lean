import Sieve.Proofs.Naming

/-! Flat documents are a shorthand. Each is read as the tree document with one list of filters, an
entry for every null check, every test for equality and every operator with its operand. -/
namespace Sieve.Document

def entryOf (field operator : String) (value : Option Json) : List (String × Json) :=
  [("field", .string field), ("op", .string operator)] ++ optionalMember "value" value

def entriesOf : String × Json → List (List (String × Json))
  | (field, .object operators) => operators.map fun pair => entryOf field pair.1 (some pair.2)
  | (field, .null) => [entryOf field Operator.isNull.name none]
  | (field, value) => [entryOf field Operator.eq.name (some value)]

/-- The tree document that a flat document is short for. -/
def longhand (members : List (String × Json)) : Json :=
  .object [("filters", .array ((members.flatMap entriesOf).map .object))]

variable {limits : Limits} {field operator : String} {members : List (String × Json)}

theorem nonBlank?_of_isName {s : String} (name : IsName s) : nonBlank? (.string s) = some s := by
  have trimmed : Text.trimmed s = s := by
    rw [Text.trimmed, Text.trim_of_visibleEnds name.visible, String.ofList_toList]
  simp [nonBlank?, trimmed, name.nonempty]

theorem filter_entryOf (named : IsName field) (asked : IsName operator) (value : Option Json) :
    filter (entryOf field operator value) =
      match value with
      | some item => do return ⟨field, operator, ← operand field item⟩
      | none => .ok ⟨field, operator, none⟩ := by
  have keys : checkKeys filterKeys .filter (entryOf field operator value) = .ok () := by
    cases value <;> rfl
  have ofField : fieldOf (entryOf field operator value) = .ok field := by
    have given : Json.member? (entryOf field operator value) "field" = some (.string field) := rfl
    simp [fieldOf, given, nonBlank?_of_isName named]
  have ofOperator : operatorOf field (entryOf field operator value) = .ok operator := by
    have given : Json.member? (entryOf field operator value) "op" = some (.string operator) := rfl
    simp [operatorOf, given, nonBlank?_of_isName asked]
  have ofValue : Json.member? (entryOf field operator value) "value" = value := by
    cases value <;> rfl
  simp only [filter, keys, ofField, ofOperator, ofValue, bind, Except.bind]
  cases value <;> rfl

theorem treeFilter_entryOf (named : IsName field) (asked : IsName operator) (value : Json) :
    treeFilter limits (entryOf field operator (some value)) =
      flatFilter limits field operator value := by
  rw [treeFilter, flatFilter, filter_entryOf named asked]
  simp only [liftM_bind]
  rfl

theorem treeFilter_isNull (named : IsName field) :
    treeFilter limits (entryOf field Operator.isNull.name none) = do
      countFilter limits
      return ⟨field, Operator.isNull.name, none⟩ := by
  rw [treeFilter, filter_entryOf named Operator.isNull.isName_name]
  rfl

section Lists

variable {m : Type → Type} [Monad m] [LawfulMonad m] {α β γ : Type}

theorem mapM_congr {walk other : α → m β} {ls : List α} (same : ∀ a ∈ ls, walk a = other a) :
    ls.mapM walk = ls.mapM other := by
  induction ls with
  | nil => rfl
  | cons a ls ih =>
    obtain ⟨first, rest⟩ := List.forall_mem_cons.mp same
    rw [List.mapM_cons, List.mapM_cons, first, ih rest]

theorem mapM_flatMap (parts : α → List β) (walk : β → m γ) (ls : List α) :
    (ls.flatMap parts).mapM walk = List.flatten <$> ls.mapM fun a => (parts a).mapM walk := by
  induction ls with
  | nil => simp
  | cons a ls ih => simp [ih]

end Lists

/-- A member is read as its entries are, one after the other. -/
theorem flatMember_eq {member : String × Json} (named : NamedMember member)
    (asks : member.2 ≠ .object []) :
    flatMember limits member = (entriesOf member).mapM (treeFilter limits) := by
  obtain ⟨field, value⟩ := member
  have ofField : IsName field := named.field
  have literal (item : Json) :
      [entryOf field Operator.eq.name (some item)].mapM (treeFilter limits) = do
        return [← flatFilter limits field Operator.eq.name item] := by
    simp [treeFilter_entryOf ofField Operator.eq.isName_name]
  cases value with
  | null => simp [entriesOf, flatMember, treeFilter_isNull ofField]
  | object operators =>
    -- An empty object has a branch of its own, which is ruled out once the rest is the same.
    rw [entriesOf, List.mapM_map]
    have each : ∀ pair ∈ operators, flatFilter limits field pair.1 pair.2 =
        treeFilter limits (entryOf field pair.1 (some pair.2)) := fun pair inside =>
      (treeFilter_entryOf ofField (named.operators operators rfl pair inside) pair.2).symm
    cases operators with
    | nil => exact absurd rfl asks
    | cons => exact mapM_congr each
  | bool | number | string | array => exact (literal _).symm

def walkEntries (limits : Limits) (members : List (String × Json)) : Walk (Tree Filter) :=
  Tree.all <$> (members.flatMap entriesOf).mapM (treeFilter limits)

theorem flat_eq (named : ∀ m ∈ members, NamedMember m) (asks : ∀ m ∈ members, m.2 ≠ .object []) :
    flat limits members = walkEntries limits members := by
  have each : ∀ m ∈ members,
      flatMember limits m = (entriesOf m).mapM (treeFilter limits) := fun m member =>
    flatMember_eq (named m member) (asks m member)
  rw [flat, mapM_congr each, walkEntries, mapM_flatMap]
  simp

theorem group_filters (levels : Nat) (entries : List (List (String × Json))) :
    group limits (levels + 1) [("filters", .array (entries.map .object))] =
      Tree.all <$> entries.mapM (treeFilter limits) := by
  let members : List (String × Json) := [("filters", .array (entries.map .object))]
  have keys : checkKeys groupKeys .group members = .ok () := rfl
  have joined : connective members = .ok .and := rfl
  have listed : objectsUnder "filters" members = .ok entries :=
    objectsUnder_eq_ok_iff.mpr ⟨_, .list rfl,
      List.forall₂_map_left_iff.mpr (List.forall₂_same.mpr fun _ _ => rfl)⟩
  have noGroups : objectsUnder "groups" members = .ok [] := rfl
  rw [group, keys, joined, listed, noGroups, map_eq_pure_bind]
  rfl

theorem ofJson_longhand (levels : 1 ≤ limits.maxDepth) :
    ofJson limits (longhand members) = (walkEntries limits members 0).map Prod.fst := by
  obtain ⟨below, deep⟩ := Nat.exists_eq_add_of_le' levels
  have form : isTree [("filters", .array ((members.flatMap entriesOf).map .object))] = true := rfl
  rw [longhand, ofJson, if_pos form, deep, group_filters, walkEntries]

theorem not_member_noOperators {filters : List Filter} : ¬Member (field, .object []) filters := by
  intro spelled
  cases spelled with
  | literal operand => exact not_operand_object operand
  | operators nonempty => exact nonempty rfl

/-- A flat document whose keys are names is read exactly as its longhand, with the same tree or the
same error, unless a field stands there without any operator. Then it is refused. -/
theorem ofJson_shorthand (limits : Limits) (members : List (String × Json))
    (form : ¬TreeForm members) (named : ∀ m ∈ members, NamedMember m)
    (levels : 1 ≤ limits.maxDepth) :
    ((∀ m ∈ members, m.2 ≠ .object []) →
        ofJson limits (.object members) = ofJson limits (longhand members)) ∧
      ((∃ m ∈ members, m.2 = .object []) → ∃ e, ofJson limits (.object members) = .error e) := by
  constructor
  · intro asks
    rw [ofJson, if_neg fun tree => form (isTree_iff.mp tree), flat_eq named asks,
      ofJson_longhand levels]
  · rintro ⟨⟨field, _⟩, member, rfl⟩
    cases read : ofJson limits (.object members) with
    | error e => exact ⟨e, rfl⟩
    | ok tree =>
      have spells : Spells (.object members) tree := (ofJson_eq_ok_iff.mp read).1
      cases spells with
      | tree treeForm => exact absurd treeForm form
      | flat _ each =>
        obtain ⟨_, _, spelled⟩ := Tree.exists_of_mem_left each member
        exact absurd spelled not_member_noOperators

/-- Fields with the names of keys, a null operand and as many filters as are allowed, an operand that
is refused, and a field without operators. -/
theorem ofJson_shorthand_films :
    let limits : Limits := ⟨0, 4, 1⟩
    let films : List (String × Json) := [("filters", .null), ("operator", .string "or"),
      ("groups", .object [("in", .array [.string "crew"]), ("gte", .null)])]
    let refused : List (String × Json) := [("year", .object [("lt", .object [])]), ("kind", .null)]
    let empty : List (String × Json) := [("year", .object [])]
    (ofJson limits (.object films) = ofJson limits (longhand films) ∧
        ∃ tree, ofJson limits (longhand films) = .ok tree) ∧
      (ofJson limits (.object refused) = ofJson limits (longhand refused) ∧
        ∃ e, ofJson limits (longhand refused) = .error e) ∧
      ∃ e, ofJson limits (.object empty) = .error e := by
  intro limits films refused empty
  have operators {field : String} {pairs : List (String × Json)} (ofField : IsName field)
      (asked : ∀ pair ∈ pairs, IsName pair.1) : NamedMember (field, .object pairs) :=
    ⟨ofField, by rintro _ ⟨⟩; exact asked⟩
  have flatFilms : ¬TreeForm films := fun form => nomatch isTree_iff.mpr form
  have namedFilms : ∀ m ∈ films, NamedMember m := by
    simp only [films, List.forall_mem_cons]
    exact ⟨⟨by decide, nofun⟩, ⟨by decide, nofun⟩, operators (by decide) (by decide), nofun⟩
  have flatRefused : ¬TreeForm refused := fun form => nomatch isTree_iff.mpr form
  have namedRefused : ∀ m ∈ refused, NamedMember m := by
    simp only [refused, List.forall_mem_cons]
    exact ⟨operators (by decide) (by decide), ⟨by decide, nofun⟩, nofun⟩
  have flatEmpty : ¬TreeForm empty := fun form => nomatch isTree_iff.mpr form
  have namedEmpty : ∀ m ∈ empty, NamedMember m := by
    simp only [empty, List.forall_mem_cons]
    exact ⟨operators (by decide) nofun, nofun⟩
  refine ⟨⟨?_, _, rfl⟩, ⟨?_, _, rfl⟩, ?_⟩
  · exact (ofJson_shorthand limits films flatFilms namedFilms (by decide)).1 (by simp [films])
  · exact (ofJson_shorthand limits refused flatRefused namedRefused (by decide)).1
      (by simp [refused])
  · exact (ofJson_shorthand limits empty flatEmpty namedEmpty (by decide)).2
      ⟨_, List.mem_cons_self, rfl⟩

end Sieve.Document
