import Sieve.Proofs.Expression.Canonical
import Sieve.Proofs.Expression.Refusal
import Sieve.Proofs.Json.Transcript
import Sieve.Proofs.Limits

/-! The names in filters. Expressions and tree documents give fields and operators without the white
space around them and are refused where nothing is left; flat documents give their keys as they
stand. -/
namespace Sieve

/-- A text that can stand for a field or an operator: there is something in it, and no white space at
its ends. -/
structure IsName (s : String) : Prop where
  nonempty : s ≠ ""
  visible : Text.VisibleEnds s.toList

instance (s : String) : Decidable (IsName s) :=
  decidable_of_iff (s ≠ "" ∧ Text.VisibleEnds s.toList)
    ⟨fun ⟨nonempty, visible⟩ => ⟨nonempty, visible⟩, fun name => ⟨name.nonempty, name.visible⟩⟩

structure Filter.Named (f : Filter) : Prop where
  field : IsName f.field
  operator : IsName f.operator

theorem isName_trimmed {s : String} {c : Char} (member : c ∈ s.toList)
    (visible : Text.isBlank c = false) : IsName (Text.trimmed s) where
  nonempty := by
    intro empty
    have blank := Text.trim_eq_nil_iff.mp (String.ofList_eq_empty_iff.mp empty) c member
    rw [visible] at blank
    cases blank
  visible := by
    rw [Text.trimmed, String.toList_ofList]
    exact Text.visibleEnds_trim s.toList

theorem Operator.isName_name (op : Operator) : IsName op.name := by
  cases op <;> decide

namespace Expression

variable {limits : Limits} {expressions : List String} {tree : Tree Filter}

theorem IsPart.isName {separator : Char} {s : String} (part : IsPart separator s) : IsName s :=
  ⟨part.nonempty, part.visible⟩

theorem Canonical.named {f : Filter} (canonical : Canonical f) : f.Named :=
  ⟨canonical.field.isName, canonical.operator.isName⟩

theorem named_of_parseAll (read : parseAll limits expressions = .ok tree) :
    ∀ f ∈ tree.leaves, f.Named := by
  obtain ⟨_, filters, each, rfl⟩ := parseAll_eq_ok_iff.mp read
  rw [Tree.leaves_all]
  intro f member
  obtain ⟨_, _, one⟩ := Tree.exists_of_mem_right each member
  exact (canonical_of_parseUnlimited (parse_eq_ok_iff.mp one).2).named

end Expression

namespace Document

inductive EntryIn : Json → List (String × Json) → Prop
  | own {members ms : List (String × Json)} {entries : List Json}
      (list : Json.member? members "filters" = some (.array entries))
      (entry : .object ms ∈ entries) : EntryIn (.object members) ms
  | nested {members ms : List (String × Json)} {objects : List Json} {object : Json}
      (list : Json.member? members "groups" = some (.array objects)) (group : object ∈ objects)
      (entry : EntryIn object ms) : EntryIn (.object members) ms

variable {document item : Json} {members ms : List (String × Json)} {tree : Tree Filter}

theorem Names.isName {name : String} (names : Names item name) : IsName name := by
  obtain ⟨s, _, ⟨c, member, visible⟩, rfl⟩ := names
  exact isName_trimmed member visible

theorem Entry.named {f : Filter} (entry : Entry members f) : f.Named where
  field := by
    obtain ⟨_, _, names⟩ := entry.field
    exact names.isName
  operator := by
    have operator := entry.operator
    split at operator
    next => exact operator ▸ Operator.eq.isName_name
    next => exact operator.isName

mutual

theorem named_of_group : (t : Tree Filter) → {object : Json} → Group object t →
    ∀ f ∈ t.leaves, f.Named
  | .group c filters groups, object, spelled => by
    cases spelled with
    | object _ _ _ filtersSpelled _ groupsSpelled =>
      refine Tree.forall_leaves_group.mpr ⟨fun f member => ?_, named_of_groups groups groupsSpelled⟩
      obtain ⟨_, _, _, _, entry⟩ := Tree.exists_of_mem_right filtersSpelled member
      exact entry.named

theorem named_of_groups : (groups : List (Tree Filter)) → {objects : List Json} →
    List.Forall₂ Group objects groups → ∀ f ∈ Tree.leavesOfAll groups, f.Named
  | [], _, .nil => nofun
  | g :: groups, _, .cons spelled others =>
    Tree.forall_leavesOfAll_cons.mpr ⟨named_of_group g spelled, named_of_groups groups others⟩

end

structure NamedMember (member : String × Json) : Prop where
  field : IsName member.1
  operators : ∀ pairs, member.2 = .object pairs → ∀ pair ∈ pairs, IsName pair.1

theorem Member.named_iff {member : String × Json} {filters : List Filter}
    (spelled : Member member filters) : (∀ f ∈ filters, f.Named) ↔ NamedMember member := by
  cases spelled with
  | null field =>
    rw [List.forall_mem_singleton]
    exact ⟨fun named => ⟨named.field, nofun⟩,
      fun named => ⟨named.field, Operator.isNull.isName_name⟩⟩
  | literal operand =>
    rw [List.forall_mem_singleton]
    constructor
    · intro named
      refine ⟨named.field, ?_⟩
      rintro pairs rfl
      exact absurd operand not_operand_object
    · intro named
      exact ⟨named.field, Operator.eq.isName_name⟩
  | @operators field pairs filters nonempty each =>
    constructor
    · intro named
      constructor
      · -- The field is named by any of its filters, and there is one.
        obtain ⟨pair, member⟩ := List.exists_mem_of_ne_nil pairs nonempty
        obtain ⟨f, inFilters, ofField, _⟩ := Tree.exists_of_mem_left each member
        exact ofField ▸ (named f inFilters).field
      · rintro _ ⟨⟩ pair member
        obtain ⟨f, inFilters, _, asked, _⟩ := Tree.exists_of_mem_left each member
        exact asked ▸ (named f inFilters).operator
    · intro named f member
      obtain ⟨pair, inPairs, ofField, asked, _⟩ := Tree.exists_of_mem_right each member
      exact ⟨ofField ▸ named.field, asked ▸ named.operators pairs rfl pair inPairs⟩

def NamedIfFlat (document : Json) : Prop :=
  ∀ members, document = .object members → ¬TreeForm members → ∀ m ∈ members, NamedMember m

theorem Spells.named_iff (spells : Spells document tree) :
    (∀ f ∈ tree.leaves, f.Named) ↔ NamedIfFlat document := by
  cases spells with
  | flat form each =>
    rw [Tree.leaves_all]
    constructor
    · rintro named _ ⟨⟩ _ m member
      obtain ⟨part, inParts, spelled⟩ := Tree.exists_of_mem_left each member
      exact spelled.named_iff.mp fun f inPart => named f (List.mem_flatten_of_mem inParts inPart)
    · intro named f member
      obtain ⟨part, inParts, inPart⟩ := List.mem_flatten.mp member
      obtain ⟨m, written, spelled⟩ := Tree.exists_of_mem_right each inParts
      exact spelled.named_iff.mpr (named _ rfl form m written) f inPart
  | tree form group =>
    refine iff_of_true (named_of_group tree group) ?_
    rintro _ ⟨⟩ flat
    exact absurd form flat

def Blank (ms : List (String × Json)) : Prop :=
  ∃ s : String, (∀ c ∈ s.toList, Text.isBlank c = true) ∧
    (Json.member? ms "field" = some (.string s) ∨
      (Json.member? ms "op").or (Json.member? ms "operator") = some (.string s))

theorem not_names_blank {s name : String} (blank : ∀ c ∈ s.toList, Text.isBlank c = true) :
    ¬Names (.string s) name := by
  rintro ⟨_, ⟨⟩, ⟨c, member, visible⟩, _⟩
  rw [blank c member] at visible
  cases visible

theorem Entry.not_blank {f : Filter} (entry : Entry ms f) : ¬Blank ms := by
  rintro ⟨s, blank, field | operator⟩
  · obtain ⟨item, given, names⟩ := entry.field
    rw [field, Option.some_inj] at given
    exact not_names_blank blank (given ▸ names)
  · have names := entry.operator
    rw [operator] at names
    exact not_names_blank blank names

theorem Listed.eq_of_array {key : String} {items list : List Json}
    (listed : Listed members key items) (given : Json.member? members key = some (.array list)) :
    items = list := by
  cases listed with
  | absent missing => exact nomatch missing.symm.trans given
  | null null => exact nomatch null.symm.trans given
  | list found => exact Json.array.inj (Option.some.inj (found.symm.trans given))

theorem EntryIn.exists_filter (inDocument : EntryIn document ms) (group : Group document tree) :
    ∃ f, Entry ms f := by
  induction inDocument generalizing tree with
  | own list entry =>
    cases group with
    | object _ _ entriesListed filtersSpelled _ _ =>
      cases entriesListed.eq_of_array list
      obtain ⟨f, _, _, ⟨⟩, spelled⟩ := Tree.exists_of_mem_left filtersSpelled entry
      exact ⟨f, spelled⟩
  | nested list object _ ih =>
    cases group with
    | object _ _ _ _ objectsListed groupsSpelled =>
      cases objectsListed.eq_of_array list
      obtain ⟨g, _, spelled⟩ := Tree.exists_of_mem_left groupsSpelled object
      exact ih spelled

theorem EntryIn.treeForm (inDocument : EntryIn (.object members) ms) : TreeForm members := by
  cases inDocument with
  | own list => exact ⟨"filters", by simp, _, list⟩
  | nested list => exact ⟨"groups", by simp, _, list⟩

theorem Spells.not_blank (spells : Spells document tree) (inDocument : EntryIn document ms) :
    ¬Blank ms := by
  cases spells with
  | flat flat => exact absurd inDocument.treeForm flat
  | tree _ group =>
    obtain ⟨_, entry⟩ := inDocument.exists_filter group
    exact entry.not_blank

end Document

namespace Source

def IsDocument : Source → Json → Prop
  | documentText text, value => Json.parse text = .ok value
  | document given, value => value = given
  | expressions _, _ | tree _, _ => False

/-- Whether a source has a blank field or operator where one is expected: before or after the first
colon of an expression, or in an entry of a tree document. -/
inductive NamesBlank : Source → Prop
  | expression {expressions : List String} {e : String} {field operator : List Char}
      {value : Option (List Char)} (member : e ∈ expressions)
      (parts : Expression.Parts e field operator value)
      (blank : (∀ c ∈ field, Text.isBlank c = true) ∨ ∀ c ∈ operator, Text.isBlank c = true) :
      NamesBlank (.expressions expressions)
  | entry {source : Source} {document : Json} {ms : List (String × Json)}
      (ofSource : source.IsDocument document) (entry : Document.EntryIn document ms)
      (blank : Document.Blank ms) : NamesBlank source

variable {source : Source} {limits : Limits} {document : Json} {tree : Tree Filter}

theorem IsDocument.spells (ofSource : source.IsDocument document)
    (read : source.read limits = .ok tree) : Document.Spells document tree := by
  cases source with
  | documentText text =>
    obtain ⟨_, other, parsed, spelled⟩ := Document.parse_eq_ok_iff_ofJson.mp read
    rw [IsDocument, parsed] at ofSource
    cases ofSource
    exact (Document.ofJson_eq_ok_iff.mp spelled).1
  | document given =>
    cases ofSource
    exact (Document.ofJson_eq_ok_iff.mp read).1
  | expressions | tree => cases ofSource

theorem named_iff_of_read (parsed : ∀ given, source ≠ .tree given)
    (read : source.read limits = .ok tree) :
    (∀ f ∈ tree.leaves, f.Named) ↔
      ∀ document, source.IsDocument document → Document.NamedIfFlat document := by
  -- A document that is accepted has one JSON value.
  have ofDocument (document : Json) (one : ∀ other, source.IsDocument other ↔ other = document) :
      (∀ f ∈ tree.leaves, f.Named) ↔
        ∀ document, source.IsDocument document → Document.NamedIfFlat document := by
    simp only [one, forall_eq]
    exact (((one document).mpr rfl).spells read).named_iff
  cases source with
  | expressions list =>
    exact iff_of_true (Expression.named_of_parseAll read) fun _ none => none.elim
  | documentText text =>
    obtain ⟨_, document, parsed, _⟩ := Document.parse_eq_ok_iff_ofJson.mp read
    exact ofDocument document fun other => by rw [IsDocument, parsed, Except.ok.injEq, eq_comm]
  | document given => exact ofDocument given fun _ => Iff.rfl
  | tree given => exact absurd rfl (parsed given)

theorem read_malformedOnly (limits : Limits) (source : Source) :
    Document.MalformedOnly (source.read limits) := by
  cases source with
  | expressions list => exact Expression.parseAll_malformedOnly limits list
  | documentText text => exact Document.parse_malformedOnly limits text
  | document json => exact Document.ofJson_malformedOnly limits json
  | tree given => exact .ok

theorem NamesBlank.read_ne_ok (blank : source.NamesBlank) : source.read limits ≠ .ok tree := by
  cases blank with
  | expression member parts blank => exact Expression.parseAll_ne_ok member parts blank tree
  | entry ofSource entry blank =>
    intro read
    exact (ofSource.spells read).not_blank entry blank

end Source

/-- The filters of an input that is accepted have names, unless it is a flat document with a key that
is no name. Where the field or the operator of an expression or of an entry is blank, the input is
refused as malformed. -/
theorem read_named (source : Source) (limits : Limits) (parsed : ∀ given, source ≠ .tree given) :
    (∀ tree, source.read limits = .ok tree →
      ((∀ f ∈ tree.leaves, f.Named) ↔
        ∀ document, source.IsDocument document → Document.NamedIfFlat document)) ∧
    (source.NamesBlank → ∃ e, source.read limits = .error e ∧ e.kind = .invalidFormat) := by
  refine ⟨fun tree read => Source.named_iff_of_read parsed read, fun blank => ?_⟩
  cases read : source.read limits with
  | ok tree => exact absurd read blank.read_ne_ok
  | error e => exact ⟨e, rfl, Source.read_malformedOnly limits source e read⟩

/-- White space around the names of an expression and of an entry, a flat document whose keys are names,
and a blank operator in a nested group. -/
theorem read_named_year :
    let text := "\x7b\"filters\": [\x7b\"field\": \" year \", \"op\": \"\\tgte\"\x7d]\x7d"
    let expressions : Source := .expressions [" year : gte :1950"]
    let tree : Source := .documentText text
    let flat : Source := .document (.object [("year", .object [("gte", .null)])])
    let entry : List (String × Json) := [("field", .string "year"), ("op", .string "\u3000")]
    let group : Json := .object [("filters", .array [.object entry])]
    let blank : Source := .document (.object [("groups", .array [group])])
    (∃ t, expressions.read .standard = .ok t ∧ ∀ f ∈ t.leaves, f.Named) ∧
      (∃ t, tree.read .standard = .ok t ∧ ∀ f ∈ t.leaves, f.Named) ∧
      (∃ t, flat.read .standard = .ok t ∧ ∀ f ∈ t.leaves, f.Named) ∧
      ∃ e, blank.read .standard = .error e ∧ e.kind = .invalidFormat := by
  intro text expressions tree flat entry group blank
  refine ⟨?_, ?_, ?_, ?_⟩
  · have read : expressions.read .standard =
        .ok (.all [⟨"year", "gte", some (.text "1950")⟩]) := rfl
    exact ⟨_, read, ((read_named expressions .standard nofun).1 _ read).mpr
      fun _ none => none.elim⟩
  · let entry : Json := .object [("field", .string " year "), ("op", .string "\tgte")]
    have written : Json.transcribe text = .ok (.object [("filters", .array [entry])]) := by
      decide +kernel
    have parsed : Json.parse text = .ok (.object [("filters", .array [entry])]) := by
      rw [Json.parse_eq, written]
      rfl
    have read : tree.read .standard = .ok (.all [⟨"year", "gte", none⟩]) :=
      Document.parse_eq_ok_iff_ofJson.mpr ⟨by decide +kernel, _, parsed, rfl⟩
    refine ⟨_, read, ((read_named tree .standard nofun).1 _ read).mpr ?_⟩
    intro document same
    change Json.parse text = .ok document at same
    cases parsed.symm.trans same
    rintro _ ⟨⟩ notTree
    exact (notTree ⟨"filters", by simp, _, rfl⟩).elim
  · have read : flat.read .standard = .ok (.all [⟨"year", "gte", none⟩]) := rfl
    refine ⟨_, read, ((read_named flat .standard nofun).1 _ read).mpr ?_⟩
    rintro _ ⟨rfl⟩ _ ⟨⟩ _ m member
    rw [List.mem_singleton] at member
    subst member
    refine ⟨by decide, ?_⟩
    rintro _ ⟨⟩
    decide
  · apply (read_named blank .standard nofun).2
    have inGroup : Document.EntryIn group entry := .own rfl List.mem_cons_self
    have inDocument : Document.EntryIn (.object [("groups", .array [group])]) entry :=
      .nested rfl List.mem_cons_self inGroup
    have wide : ∀ c ∈ "\u3000".toList, Text.isBlank c = true := List.all_eq_true.mp (by decide)
    exact .entry rfl inDocument ⟨"\u3000", wide, .inr rfl⟩

/-- A blank field, and white space around the names, as keys of flat documents, and the same field in
the two forms that refuse it. -/
theorem read_flat_unnamed :
    let text := "\x7b\" \": 1\x7d"
    let spaced : Json := .object [(" age ", .object [("", .number (.whole 1))])]
    let entry : Json := .object [("field", .string " "), ("value", .number (.whole 1))]
    (∃ tree, Source.read .standard (.documentText text) = .ok tree ∧
        ∀ f ∈ tree.leaves, ¬IsName f.field) ∧
      (∃ tree, Source.read .standard (.document spaced) = .ok tree ∧
        ∀ f ∈ tree.leaves, ¬IsName f.field ∧ ¬IsName f.operator) ∧
      (∃ e, Source.read .standard (.document (.object [("filters", .array [entry])])) = .error e ∧
        e.kind = .invalidFormat) ∧
      ∃ e, Source.read .standard (.expressions [" :eq:1"]) = .error e ∧ e.kind = .invalidFormat := by
  intro text spaced entry
  refine ⟨?_, ?_, ⟨_, rfl, rfl⟩, ⟨_, rfl, rfl⟩⟩
  · have written : Json.transcribe text = .ok (.object [(" ", .number (.whole 1))]) := by
      decide +kernel
    have parsed : Json.parse text = .ok (.object [(" ", .number (.whole 1))]) := by
      rw [Json.parse_eq, written]
      rfl
    refine ⟨.all [⟨" ", "eq", some (.number (.whole 1))⟩],
      Document.parse_eq_ok_iff_ofJson.mpr ⟨by decide +kernel, _, parsed, rfl⟩, ?_⟩
    rw [Tree.leaves_all, List.forall_mem_singleton]
    decide
  · refine ⟨.all [⟨" age ", "", some (.number (.whole 1))⟩], rfl, ?_⟩
    rw [Tree.leaves_all, List.forall_mem_singleton]
    decide

end Sieve
