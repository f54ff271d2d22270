import Mathlib.Algebra.Order.BigOperators.Group.List
import Mathlib.Algebra.Order.Group.Nat
import Sieve.Engine
import Sieve.Proofs.Document.Parsing
import Sieve.Proofs.Expression.Reading

/-! Limits on inputs. What is made of an input does not depend on them: they only decide whether it
is accepted, each by a bound of its own, and raising a limit refuses nothing. -/
namespace Sieve

structure Limits.AtMost (limits higher : Limits) : Prop where
  maxInputBytes : limits.maxInputBytes ≤ higher.maxInputBytes
  maxFilters : limits.maxFilters ≤ higher.maxFilters
  maxDepth : limits.maxDepth ≤ higher.maxDepth

/-- What a reader gives where no limit is in its way: what it gives under all limits that leave room
enough. -/
def Unlimited {α : Type} (read : Limits → Except FilterError α) (a : α) : Prop :=
  ∃ room : Limits, ∀ limits, room.AtMost limits → read limits = .ok a

structure Limited {α : Type} (read : Limits → Except FilterError α) (spelled : α → Prop)
    (admits : Limits → α → Prop) : Prop where
  read_eq_ok_iff : ∀ limits a, read limits = .ok a ↔ spelled a ∧ admits limits a
  raised : ∀ limits higher a, limits.AtMost higher → admits limits a → admits higher a
  room : ∀ a, ∃ limits, admits limits a

namespace Limited

variable {α : Type} {read : Limits → Except FilterError α} {spelled : α → Prop}
  {admits : Limits → α → Prop} {limits higher : Limits} {a : α}

theorem unlimited_iff (limited : Limited read spelled admits) : Unlimited read a ↔ spelled a := by
  constructor
  · rintro ⟨room, reads⟩
    have same : room.AtMost room := ⟨Nat.le_refl _, Nat.le_refl _, Nat.le_refl _⟩
    exact ((limited.read_eq_ok_iff room a).mp (reads room same)).1
  · intro spells
    obtain ⟨room, admitted⟩ := limited.room a
    refine ⟨room, fun limits higher => (limited.read_eq_ok_iff limits a).mpr ⟨spells, ?_⟩⟩
    exact limited.raised room limits a higher admitted

theorem read_eq_ok_iff_unlimited (limited : Limited read spelled admits) :
    read limits = .ok a ↔ Unlimited read a ∧ admits limits a := by
  rw [limited.unlimited_iff, limited.read_eq_ok_iff]

theorem read_raised (limited : Limited read spelled admits) (raised : limits.AtMost higher)
    (accepted : read limits = .ok a) : read higher = .ok a := by
  obtain ⟨spells, admitted⟩ := (limited.read_eq_ok_iff limits a).mp accepted
  exact (limited.read_eq_ok_iff higher a).mpr ⟨spells, limited.raised limits higher a raised admitted⟩

end Limited

namespace Document

def HasTreeForm (document : Json) : Prop :=
  ∃ members, document = .object members ∧ TreeForm members

/-- The bounds on the tree of a document: on its filters, and on its depth if it is spelled as a
tree. -/
def Admits (document : Json) (limits : Limits) (tree : Tree Filter) : Prop :=
  tree.leafCount ≤ limits.maxFilters ∧ (HasTreeForm document → tree.depth ≤ limits.maxDepth)

theorem limited_ofJson (document : Json) :
    Limited (ofJson · document) (Spells document) (Admits document) where
  read_eq_ok_iff limits tree := by
    rw [ofJson_eq_ok_iff, Admits, HasTreeForm]
    simp only [forall_exists_index, and_imp]
  raised := by
    rintro limits higher tree raised ⟨few, shallow⟩
    exact ⟨few.trans raised.maxFilters, fun form => (shallow form).trans raised.maxDepth⟩
  room tree := ⟨⟨0, tree.leafCount, tree.depth⟩, Nat.le_refl _, fun _ => Nat.le_refl _⟩

theorem limited_parse (text : String) :
    Limited (parse · text)
      (fun tree => ∃ document, Json.parse text = .ok document ∧ Spells document tree)
      (fun limits tree => text.utf8ByteSize ≤ limits.maxInputBytes ∧
        tree.leafCount ≤ limits.maxFilters ∧
        ∀ document, Json.parse text = .ok document → HasTreeForm document →
          tree.depth ≤ limits.maxDepth) where
  read_eq_ok_iff limits tree := by
    rw [parse_eq_ok_iff_ofJson]
    cases Json.parse text with
    | error fault => simp
    | ok document => simp [(limited_ofJson document).read_eq_ok_iff, Admits, and_left_comm]
  raised := by
    rintro limits higher tree raised ⟨short, few, shallow⟩
    exact ⟨short.trans raised.maxInputBytes, few.trans raised.maxFilters,
      fun document spelled form => (shallow document spelled form).trans raised.maxDepth⟩
  room tree := ⟨⟨text.utf8ByteSize, tree.leafCount, tree.depth⟩, Nat.le_refl _, Nat.le_refl _,
    fun _ _ _ => Nat.le_refl _⟩

end Document

namespace Expression

theorem mapM_parse_eq_ok_iff {limits : Limits} {expressions : List String} {filters : List Filter} :
    expressions.mapM (parse limits) = .ok filters ↔
      expressions.mapM parseUnlimited = .ok filters ∧
        ∀ e ∈ expressions, e.utf8ByteSize ≤ limits.maxInputBytes := by
  induction expressions generalizing filters with
  | nil => simp
  | cons e rest ih =>
    simp only [List.mapM_cons, bind_eq_ok, parse_eq_ok_iff, ih, List.forall_mem_cons]
    grind

theorem limited_parseAll (expressions : List String) :
    Limited (parseAll · expressions)
      (fun tree => (expressions.mapM parseUnlimited).map Tree.all = .ok tree)
      (fun limits _ => expressions.length ≤ limits.maxFilters ∧
        ∀ e ∈ expressions, e.utf8ByteSize ≤ limits.maxInputBytes) where
  read_eq_ok_iff limits tree := by
    unfold parseAll
    split
    next many => simp [Nat.not_le.mpr many]
    next few =>
      simp only [map_eq_ok, mapM_parse_eq_ok_iff]
      have within := Nat.not_lt.mp few
      grind
  raised := by
    rintro limits higher tree raised ⟨few, short⟩
    exact ⟨few.trans raised.maxFilters, fun e member =>
      (short e member).trans raised.maxInputBytes⟩
  room tree := by
    -- No expression is longer than all of them together.
    refine ⟨⟨(expressions.map String.utf8ByteSize).sum, expressions.length, 0⟩, Nat.le_refl _, ?_⟩
    intro e member
    exact List.le_sum_of_mem (List.mem_map_of_mem member)

theorem leafCount_of_parseAll {limits : Limits} {expressions : List String} {tree : Tree Filter}
    (read : parseAll limits expressions = .ok tree) : tree.leafCount = expressions.length := by
  obtain ⟨_, filters, each, rfl⟩ := parseAll_eq_ok_iff.mp read
  rw [Tree.leafCount_eq_length, Tree.leaves_all, each.length_eq]

end Expression

theorem Source.read_raised {source : Source} {limits higher : Limits} {tree : Tree Filter}
    (raised : limits.AtMost higher) (accepted : source.read limits = .ok tree) :
    source.read higher = .ok tree := by
  cases source with
  | expressions list => exact (Expression.limited_parseAll list).read_raised raised accepted
  | documentText text => exact (Document.limited_parse text).read_raised raised accepted
  | document json => exact (Document.limited_ofJson json).read_raised raised accepted
  | tree given => exact accepted

theorem Source.leafCount_of_read {source : Source} {limits : Limits} {tree : Tree Filter}
    (parsed : ∀ given, source ≠ .tree given) (accepted : source.read limits = .ok tree) :
    tree.leafCount ≤ limits.maxFilters := by
  cases source with
  | expressions list =>
    have admitted := ((Expression.limited_parseAll list).read_eq_ok_iff limits tree).mp accepted
    rw [Expression.leafCount_of_parseAll accepted]
    exact admitted.2.1
  | documentText text =>
    obtain ⟨_, document, _, read⟩ := Document.parse_eq_ok_iff_ofJson.mp accepted
    exact (((Document.limited_ofJson document).read_eq_ok_iff limits tree).mp read).2.1
  | document json =>
    exact (((Document.limited_ofJson json).read_eq_ok_iff limits tree).mp accepted).2.1
  | tree given => exact absurd rfl (parsed given)

/-- An input is accepted if it is where no limit is in its way, and it keeps within each limit: a
document by the filters of its tree and, if it is spelled as a tree, by its depth, a text by its bytes
too, and expressions by their number and the bytes of each. What is accepted stays the same under
higher limits, and has no more filters than are admitted. -/
theorem read_within_limits :
    (∀ limits document tree, Document.ofJson limits document = .ok tree ↔
      Unlimited (Document.ofJson · document) tree ∧ tree.leafCount ≤ limits.maxFilters ∧
        (Document.HasTreeForm document → tree.depth ≤ limits.maxDepth)) ∧
    (∀ limits text tree, Document.parse limits text = .ok tree ↔
      Unlimited (Document.parse · text) tree ∧ text.utf8ByteSize ≤ limits.maxInputBytes ∧
        tree.leafCount ≤ limits.maxFilters ∧
        ∀ document, Json.parse text = .ok document → Document.HasTreeForm document →
          tree.depth ≤ limits.maxDepth) ∧
    (∀ limits expressions tree, Expression.parseAll limits expressions = .ok tree ↔
      Unlimited (Expression.parseAll · expressions) tree ∧
        expressions.length ≤ limits.maxFilters ∧
        ∀ e ∈ expressions, e.utf8ByteSize ≤ limits.maxInputBytes) ∧
    ∀ (source : Source) limits tree, source.read limits = .ok tree →
      (∀ higher, limits.AtMost higher → source.read higher = .ok tree) ∧
        ((∀ given, source ≠ .tree given) → tree.leafCount ≤ limits.maxFilters) := by
  refine ⟨fun limits document tree => ?_, fun limits text tree => ?_,
    fun limits expressions tree => ?_, fun source limits tree accepted => ⟨?_, ?_⟩⟩
  · exact (Document.limited_ofJson document).read_eq_ok_iff_unlimited
  · exact (Document.limited_parse text).read_eq_ok_iff_unlimited
  · exact (Expression.limited_parseAll expressions).read_eq_ok_iff_unlimited
  · intro higher raised
    exact Source.read_raised raised accepted
  · intro parsed
    exact Source.leafCount_of_read parsed accepted

/-- Three filters in two levels are admitted by the limits three and two, and by all higher ones, but
neither by two filters nor by one level. -/
theorem read_within_limits_tight :
    let entry (field : String) : Json := .object [("field", .string field)]
    let inner : Json := .object [("filters", .array [entry "kind", entry "title"])]
    let document : Json :=
      .object [("filters", .array [entry "year"]), ("groups", .array [inner])]
    let tree : Tree Filter := .group .and [⟨"year", "eq", none⟩]
      [.all [⟨"kind", "eq", none⟩, ⟨"title", "eq", none⟩]]
    let tight : Limits := ⟨0, 3, 2⟩
    Document.ofJson tight document = .ok tree ∧ Document.HasTreeForm document ∧
      (∀ higher, tight.AtMost higher → Document.ofJson higher document = .ok tree) ∧
      Document.ofJson ⟨0, 2, 2⟩ document ≠ .ok tree ∧
      Document.ofJson ⟨0, 3, 1⟩ document ≠ .ok tree := by
  intro entry inner document tree tight
  obtain ⟨admits, _, _, reads⟩ := read_within_limits
  have accepted : Document.ofJson tight document = .ok tree := rfl
  have form : Document.HasTreeForm document := ⟨_, rfl, "filters", by simp, _, rfl⟩
  refine ⟨accepted, form, (reads (.document document) tight tree accepted).1, ?_, ?_⟩
  · intro read
    obtain ⟨_, few, _⟩ := (admits _ _ _).mp read
    exact absurd few (by decide)
  · intro read
    obtain ⟨_, _, shallow⟩ := (admits _ _ _).mp read
    exact absurd (shallow form) (by decide)

end Sieve
