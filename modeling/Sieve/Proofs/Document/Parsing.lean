import Sieve.Proofs.Document.Walks

/-! Documents are read as the grammar says: what is made of a document, within the limits, is the one
tree that it spells. -/
namespace Sieve.Document

variable {limits : Limits}

theorem leafCountOfAll_eq (groups : List (Tree Filter)) :
    Tree.leafCountOfAll groups = sizeOfAll Tree.leafCount groups := by
  induction groups with
  | nil => rfl
  | cons g gs ih => rw [Tree.leafCountOfAll, sizeOfAll_cons, ih]

theorem maxDepth_le_iff {levels : Nat} {groups : List (Tree Filter)} :
    Tree.maxDepth groups ≤ levels ↔ ∀ g ∈ groups, g.depth ≤ levels := by
  induction groups with
  | nil => simp [Tree.maxDepth]
  | cons g gs ih => rw [Tree.maxDepth, Nat.max_le, ih, List.forall_mem_cons]

theorem forall₂_objects {β : Type} {R : List (String × Json) → β → Prop} {items : List Json}
    {bs : List β} :
    List.Forall₂ (fun item b => ∃ ms, item = .object ms ∧ R ms b) items bs ↔
      ∃ objects, List.Forall₂ (fun item ms => item = .object ms) items objects ∧
        List.Forall₂ R objects bs := by
  constructor
  · intro each
    induction each with
    | nil => exact ⟨[], .nil, .nil⟩
    | cons first _ ih =>
      obtain ⟨ms, same, spelled⟩ := first
      obtain ⟨objects, others, rest⟩ := ih
      exact ⟨ms :: objects, .cons same others, .cons spelled rest⟩
  · rintro ⟨objects, same, spelled⟩
    exact Tree.forall₂_comp same spelled

theorem forall₂_group {items : List Json} {groups : List (Tree Filter)} :
    List.Forall₂ Group items groups ↔
      ∃ objects, List.Forall₂ (fun item ms => item = .object ms) items objects ∧
        List.Forall₂ (fun ms g => Group (.object ms) g) objects groups := by
  rw [← forall₂_objects]
  constructor
  · intro each
    refine each.imp fun item g spelled => ?_
    cases spelled with
    | object keys joined entries filters objects groups =>
      exact ⟨_, rfl, .object keys joined entries filters objects groups⟩
  · intro each
    refine each.imp fun item g => ?_
    rintro ⟨ms, rfl, spelled⟩
    exact spelled

theorem forall₂_and_iff {α β : Type} {R : α → β → Prop} {p : β → Prop} {as : List α} {bs : List β} :
    List.Forall₂ (fun a b => R a b ∧ p b) as bs ↔ List.Forall₂ R as bs ∧ ∀ b ∈ bs, p b := by
  constructor
  · intro each
    induction each with
    | nil => exact ⟨.nil, by simp⟩
    | cons first _ ih => exact ⟨.cons first.1 ih.1, List.forall_mem_cons.mpr ⟨first.2, ih.2⟩⟩
  · rintro ⟨related, holds⟩
    induction related with
    | nil => exact .nil
    | cons first _ ih =>
      obtain ⟨here, there⟩ := List.forall_mem_cons.mp holds
      exact .cons ⟨first, here⟩ (ih there)

theorem group_object_iff {members : List (String × Json)} {c : Connective} {filters : List Filter}
    {groups : List (Tree Filter)} :
    Group (.object members) (.group c filters groups) ↔
      checkKeys groupKeys .group members = .ok () ∧ connective members = .ok c ∧
        (∃ entries, objectsUnder "filters" members = .ok entries ∧
          List.Forall₂ Entry entries filters) ∧
        ∃ objects, objectsUnder "groups" members = .ok objects ∧
          List.Forall₂ (fun ms g => Group (.object ms) g) objects groups := by
  rw [checkKeys_eq_ok_iff, connective_eq_ok_iff]
  constructor
  · intro spelled
    cases spelled with
    | object keys joined entriesListed filtersSpelled objectsListed groupsSpelled =>
      obtain ⟨entries, entryObjects, filtersSpelled⟩ := forall₂_objects.mp filtersSpelled
      obtain ⟨objects, groupObjects, groupsSpelled⟩ := forall₂_group.mp groupsSpelled
      exact ⟨keys, joined,
        ⟨entries, objectsUnder_eq_ok_iff.mpr ⟨_, entriesListed, entryObjects⟩, filtersSpelled⟩,
        ⟨objects, objectsUnder_eq_ok_iff.mpr ⟨_, objectsListed, groupObjects⟩, groupsSpelled⟩⟩
  · rintro ⟨keys, joined, ⟨entries, entriesFound, filtersSpelled⟩, objects, objectsFound,
      groupsSpelled⟩
    obtain ⟨_, entriesListed, entryObjects⟩ := objectsUnder_eq_ok_iff.mp entriesFound
    obtain ⟨_, objectsListed, groupObjects⟩ := objectsUnder_eq_ok_iff.mp objectsFound
    exact .object keys joined entriesListed
      (forall₂_objects.mpr ⟨entries, entryObjects, filtersSpelled⟩) objectsListed
      (forall₂_group.mpr ⟨objects, groupObjects, groupsSpelled⟩)

/-- What a walk through a group does: it checks the keys, reads the connective, and goes through the
filters before the groups. -/
theorem group_eq_ok_iff {levels count after : Nat} {members : List (String × Json)}
    {t : Tree Filter} :
    group limits (levels + 1) members count = .ok (t, after) ↔
      ∃ c entries filters objects groups between, t = .group c filters groups ∧
        checkKeys groupKeys .group members = .ok () ∧ connective members = .ok c ∧
        objectsUnder "filters" members = .ok entries ∧
        entries.mapM (treeFilter limits) count = .ok (filters, between) ∧
        objectsUnder "groups" members = .ok objects ∧
        objects.mapM (group limits levels) between = .ok (groups, after) := by
  rw [group]
  constructor
  · intro run
    obtain ⟨_, _, keysChecked, afterKeys⟩ := walk_bind_eq_ok.mp run
    obtain ⟨keys, rfl⟩ := walk_lift_eq_ok.mp keysChecked
    obtain ⟨c, _, connectiveRead, afterConnective⟩ := walk_bind_eq_ok.mp afterKeys
    obtain ⟨joined, rfl⟩ := walk_lift_eq_ok.mp connectiveRead
    obtain ⟨entries, _, entriesRead, afterEntries⟩ := walk_bind_eq_ok.mp afterConnective
    obtain ⟨entriesFound, rfl⟩ := walk_lift_eq_ok.mp entriesRead
    obtain ⟨filters, between, filtersRead, afterFilters⟩ := walk_bind_eq_ok.mp afterEntries
    obtain ⟨objects, _, objectsRead, afterObjects⟩ := walk_bind_eq_ok.mp afterFilters
    obtain ⟨objectsFound, rfl⟩ := walk_lift_eq_ok.mp objectsRead
    obtain ⟨groups, _, groupsRead, done⟩ := walk_bind_eq_ok.mp afterObjects
    obtain ⟨rfl, rfl⟩ := walk_pure_eq_ok.mp done
    exact ⟨c, entries, filters, objects, groups, _, rfl, keys, joined, entriesFound, filtersRead,
      objectsFound, groupsRead⟩
  · rintro ⟨c, entries, filters, objects, groups, between, rfl, keys, joined, entriesFound,
      filtersRead, objectsFound, groupsRead⟩
    refine walk_bind_eq_ok.mpr ⟨(), count, walk_lift_eq_ok.mpr ⟨keys, rfl⟩, ?_⟩
    refine walk_bind_eq_ok.mpr ⟨c, count, walk_lift_eq_ok.mpr ⟨joined, rfl⟩, ?_⟩
    refine walk_bind_eq_ok.mpr ⟨entries, count, walk_lift_eq_ok.mpr ⟨entriesFound, rfl⟩, ?_⟩
    refine walk_bind_eq_ok.mpr ⟨filters, between, filtersRead, ?_⟩
    refine walk_bind_eq_ok.mpr ⟨objects, between, walk_lift_eq_ok.mpr ⟨objectsFound, rfl⟩, ?_⟩
    refine walk_bind_eq_ok.mpr ⟨groups, after, groupsRead, ?_⟩
    exact walk_pure_eq_ok.mpr ⟨rfl, rfl⟩

/-- A group is read as the grammar says, if it is not nested too deeply. -/
theorem reads_group (levels : Nat) (members : List (String × Json)) :
    Reads limits (group limits levels members)
      (fun t => Group (.object members) t ∧ t.depth ≤ levels) Tree.leafCount := by
  induction levels generalizing members with
  | zero =>
    -- Every tree has a level of its own.
    intro count _ t after
    constructor
    · intro run
      cases run
    · rintro ⟨⟨_, shallow⟩, _⟩
      obtain ⟨c, ls, gs⟩ := t
      rw [Tree.depth] at shallow
      omega
  | succ levels ih =>
    intro count within t after
    have depth (c : Connective) (filters : List Filter) (groups : List (Tree Filter)) :
        (Tree.group c filters groups).depth ≤ levels + 1 ↔ ∀ g ∈ groups, g.depth ≤ levels := by
      rw [Tree.depth, Nat.add_comm, Nat.add_le_add_iff_right, maxDepth_le_iff]
    have size (c : Connective) (filters : List Filter) (groups : List (Tree Filter)) :
        (Tree.group c filters groups).leafCount =
          sizeOfAll (fun _ => 1) filters + sizeOfAll Tree.leafCount groups := by
      rw [Tree.leafCount, leafCountOfAll_eq, sizeOfAll_one]
    have filtersRead := @reads_mapM limits _ _ _ _ _ reads_treeFilter
    have groupsRead := reads_mapM ih
    rw [group_eq_ok_iff]
    constructor
    · rintro ⟨c, entries, filters, objects, groups, _, rfl, keys, joined, entriesFound, ownRead,
        objectsFound, nestedRead⟩
      obtain ⟨own, rfl, stillWithin⟩ := (filtersRead entries count within filters _).mp ownRead
      obtain ⟨nested, rfl, stillWithin⟩ :=
        (groupsRead objects _ stillWithin groups _).mp nestedRead
      obtain ⟨nested, shallow⟩ := forall₂_and_iff.mp nested
      refine ⟨⟨group_object_iff.mpr ?_, (depth c filters groups).mpr shallow⟩, ?_, stillWithin⟩
      · exact ⟨keys, joined, ⟨entries, entriesFound, own⟩, objects, objectsFound, nested⟩
      · rw [size, Nat.add_assoc]
    · rintro ⟨⟨spelled, shallow⟩, total, stillWithin⟩
      obtain ⟨c, filters, groups⟩ := t
      obtain ⟨keys, joined, ⟨entries, entriesFound, own⟩, objects, objectsFound, nested⟩ :=
        group_object_iff.mp spelled
      rw [size, ← Nat.add_assoc] at total
      refine ⟨c, entries, filters, objects, groups, _, rfl, keys, joined, entriesFound,
        (filtersRead entries count within filters _).mpr ⟨own, rfl, by omega⟩, objectsFound, ?_⟩
      apply (groupsRead objects _ (by omega) groups after).mpr
      exact ⟨forall₂_and_iff.mpr ⟨nested, (depth c filters groups).mp shallow⟩, total, stillWithin⟩

theorem isTree_iff {members : List (String × Json)} : isTree members = true ↔ TreeForm members := by
  have list (key : String) : ((Json.member? members key).map isArray).getD false = true ↔
      ∃ items, Json.member? members key = some (.array items) := by
    cases Json.member? members key with
    | none => simp
    | some item => cases item <;> simp [isArray]
  rw [isTree, List.any_eq_true, TreeForm]
  simp only [list]

theorem ofJson_eq_ok_iff {document : Json} {tree : Tree Filter} :
    ofJson limits document = .ok tree ↔
      Spells document tree ∧ tree.leafCount ≤ limits.maxFilters ∧
        ∀ members, document = .object members → TreeForm members → tree.depth ≤ limits.maxDepth := by
  cases document with
  | object members =>
    rw [ofJson]
    by_cases form : TreeForm members
    · rw [if_pos (isTree_iff.mpr form), (reads_group limits.maxDepth members).run_eq_ok_iff]
      constructor
      · rintro ⟨⟨group, shallow⟩, within⟩
        exact ⟨.tree form group, within, fun _ _ _ => shallow⟩
      · rintro ⟨spells, within, shallow⟩
        cases spells with
        | flat flatForm => exact absurd form flatForm
        | tree _ group => exact ⟨⟨group, shallow members rfl form⟩, within⟩
    · rw [if_neg fun tree => form (isTree_iff.mp tree), (reads_flat members).run_eq_ok_iff]
      constructor
      · rintro ⟨⟨parts, each, rfl⟩, within⟩
        exact ⟨.flat form each, within, by rintro _ ⟨⟩ tree; exact absurd tree form⟩
      · rintro ⟨spells, within, _⟩
        cases spells with
        | flat _ each => exact ⟨⟨_, each, rfl⟩, within⟩
        | tree treeForm => exact absurd treeForm form
  | _ =>
    constructor
    · intro read
      cases read
    · rintro ⟨spells, _⟩
      cases spells

theorem ofJson_of_spells {document : Json} {tree : Tree Filter}
    (spells : Spells document tree) (filters : tree.leafCount ≤ limits.maxFilters)
    (levels : tree.depth ≤ limits.maxDepth) : ofJson limits document = .ok tree :=
  ofJson_eq_ok_iff.mpr ⟨spells, filters, fun _ _ _ => levels⟩

theorem Spells.unique {document : Json} {tree other : Tree Filter} (spells : Spells document tree)
    (spellsOther : Spells document other) : tree = other := by
  let room : Limits :=
    ⟨0, max tree.leafCount other.leafCount, max tree.depth other.depth⟩
  have read : ofJson room document = .ok tree :=
    ofJson_of_spells spells (Nat.le_max_left _ _) (Nat.le_max_left _ _)
  have readOther : ofJson room document = .ok other :=
    ofJson_of_spells spellsOther (Nat.le_max_right _ _) (Nat.le_max_right _ _)
  exact Except.ok.inj (read.symm.trans readOther)

theorem parse_eq_ok_iff_ofJson {text : String} {tree : Tree Filter} :
    parse limits text = .ok tree ↔ text.utf8ByteSize ≤ limits.maxInputBytes ∧
      ∃ document, Json.parse text = .ok document ∧ ofJson limits document = .ok tree := by
  unfold parse
  split
  next long => simp [Nat.not_le.mpr long]
  next short =>
    cases Json.parse text with
    | error fault => simp
    | ok document => simp [Nat.not_lt.mp short]

/-- Under limits that leave room for it, a document is accepted if it spells a tree, and that tree is
what is made of it. Under no limits is anything else made of it. -/
theorem ofJson_spells (document : Json) :
    (∃ room : Limits, ∀ limits : Limits, room.maxFilters ≤ limits.maxFilters →
        room.maxDepth ≤ limits.maxDepth →
          ∀ tree, ofJson limits document = .ok tree ↔ Spells document tree) ∧
      ∀ limits tree, ofJson limits document = .ok tree → Spells document tree := by
  have sound (limits : Limits) (tree : Tree Filter) (read : ofJson limits document = .ok tree) :
      Spells document tree := (ofJson_eq_ok_iff.mp read).1
  refine ⟨?_, sound⟩
  -- Room for the one tree that is spelled is enough, and no room is needed where none is.
  by_cases spelled : ∃ tree, Spells document tree
  · obtain ⟨tree, spells⟩ := spelled
    refine ⟨⟨0, tree.leafCount, tree.depth⟩, fun limits filters levels other =>
      ⟨sound limits other, fun spellsOther => ?_⟩⟩
    cases spells.unique spellsOther
    exact ofJson_of_spells spells filters levels
  · refine ⟨⟨0, 0, 0⟩, fun limits _ _ tree => ⟨sound limits tree, fun spells => ?_⟩⟩
    exact absurd ⟨tree, spells⟩ spelled

/-- A tree whose connective is missing, with one key for an operator and the other, blanks around
names, and a field of a flat document that has the name of a list. -/
theorem ofJson_spells_films :
    let entry : Json := .object [("field", .string " year "), ("op", .string "gte"),
      ("operator", .null), ("value", .number (.whole 1950))]
    let nested : Json := .object [("groups", .array [.object [("operator", .string "Or"),
      ("filters", .array [entry, .object [("field", .string "kind")]])]])]
    let nestedTree : Tree Filter := .group .and [] [.group .or
      [⟨"year", "gte", some (.number (.whole 1950))⟩, ⟨"kind", "eq", none⟩] []]
    let flat : Json := .object [("groups", .string "crew"), ("year", .object [("lt", .null)])]
    let flatTree : Tree Filter := .all [⟨"groups", "eq", some (.text "crew")⟩, ⟨"year", "lt", none⟩]
    ofJson .standard nested = .ok nestedTree ∧ ofJson .standard flat = .ok flatTree ∧
      Spells nested nestedTree ∧ Spells flat flatTree := by
  intro entry nested nestedTree flat flatTree
  have nestedRead : ofJson .standard nested = .ok nestedTree := rfl
  have flatRead : ofJson .standard flat = .ok flatTree := rfl
  exact ⟨nestedRead, flatRead, (ofJson_spells nested).2 .standard nestedTree nestedRead,
    (ofJson_spells flat).2 .standard flatTree flatRead⟩

end Sieve.Document
