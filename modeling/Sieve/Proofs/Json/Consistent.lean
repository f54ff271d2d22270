import Mathlib.Data.List.Induction
import Sieve.Proofs.Json.Transcript

/-! Transcripts in which no name is given two different values. Nothing is lost when they settle. -/
namespace Sieve.Json

variable {members : List (String × Json)} {m : String × Json}

theorem mem_setMember {name : String} {value : Json} (member : m ∈ setMember name value members) :
    m = (name, value) ∨ m ∈ members := by
  induction members with
  | nil => exact .inl (List.mem_singleton.mp member)
  | cons n rest ih =>
    rw [setMember] at member
    split at member
    · exact (List.mem_cons.mp member).imp_right (List.mem_cons_of_mem n)
    · rcases List.mem_cons.mp member with rfl | later
      · exact .inr List.mem_cons_self
      · exact (ih later).imp_right (List.mem_cons_of_mem n)

theorem mem_of_mem_collapse (member : m ∈ collapse members) : m ∈ members := by
  induction members using List.reverseRecOn with
  | nil => cases member
  | append_singleton members last ih =>
    rw [collapse_concat] at member
    rcases mem_setMember member with rfl | before
    · exact List.mem_append_right members List.mem_cons_self
    · exact List.mem_append_left [last] (ih before)

theorem exists_member?_collapse (member : m ∈ members) :
    ∃ value, member? (collapse members) m.1 = some value := by
  induction members using List.reverseRecOn with
  | nil => cases member
  | append_singleton members last ih =>
    rw [collapse_concat, member?_setMember]
    split
    next => exact ⟨_, rfl⟩
    next other =>
      rcases List.mem_append.mp member with before | same
      · exact ih before
      · exact absurd (congrArg Prod.fst (List.mem_singleton.mp same)) other

theorem mem_of_member? {name : String} {value : Json}
    (found : member? members name = some value) : (name, value) ∈ members := by
  obtain ⟨⟨other, _⟩, here, rfl⟩ := Option.map_eq_some_iff.mp found
  have same := List.find?_some here
  cases beq_iff_eq.mp same
  exact List.mem_of_find?_eq_some here

def Agree (members : List (String × Json)) : Prop :=
  ∀ m ∈ members, ∀ n ∈ members, m.1 = n.1 → m.2 = n.2

/-- Members that agree all keep their values. -/
theorem Agree.member?_collapse (agree : Agree members) (member : m ∈ members) :
    member? (collapse members) m.1 = some m.2 := by
  obtain ⟨value, found⟩ := exists_member?_collapse member
  have written := mem_of_mem_collapse (mem_of_member? found)
  rw [found, agree m member (m.1, value) written rfl]

mutual

def Consistent : Json → Prop
  | array items => ItemsConsistent items
  | object members => Agree members ∧ MembersConsistent members
  | _ => True

def ItemsConsistent : List Json → Prop
  | [] => True
  | item :: rest => Consistent item ∧ ItemsConsistent rest

def MembersConsistent : List (String × Json) → Prop
  | [] => True
  | (_, value) :: rest => Consistent value ∧ MembersConsistent rest

end

theorem itemsConsistent_iff {items : List Json} :
    ItemsConsistent items ↔ ∀ item ∈ items, item.Consistent := by
  induction items with
  | nil => simp [ItemsConsistent]
  | cons item rest ih => rw [ItemsConsistent, ih, List.forall_mem_cons]

theorem membersConsistent_iff {members : List (String × Json)} :
    MembersConsistent members ↔ ∀ m ∈ members, m.2.Consistent := by
  induction members with
  | nil => simp [MembersConsistent]
  | cons m rest ih => rw [MembersConsistent, ih, List.forall_mem_cons]

section
variable {w : Json}

theorem eq_null_of_settled (same : w.settled = null) : w = null := by
  cases w <;> cases same
  rfl

theorem eq_bool_of_settled {b : Bool} (same : w.settled = bool b) : w = bool b := by
  cases w <;> cases same
  rfl

theorem eq_number_of_settled {n : Number} (same : w.settled = number n) : w = number n := by
  cases w <;> cases same
  rfl

theorem eq_string_of_settled {s : String} (same : w.settled = string s) : w = string s := by
  cases w <;> cases same
  rfl

theorem exists_of_settled_array {items : List Json} (same : w.settled = array items) :
    ∃ written, w = array written ∧ items = written.map settled := by
  cases w <;> cases same
  exact ⟨_, rfl, settledItems_eq _⟩

theorem exists_of_settled_object {members : List (String × Json)} (same : w.settled = object members) :
    ∃ written, w = object written ∧ members = collapse (settledMembers written) := by
  cases w <;> cases same
  exact ⟨_, rfl, rfl⟩

end

/-- What becomes of the members of an object that agree: each keeps its value, and no other comes in. -/
structure Settles (written members : List (String × Json)) : Prop where
  kept : ∀ m ∈ written, member? members m.1 = some m.2.settled
  written : ∀ m ∈ members, ∃ n ∈ written, m = (n.1, n.2.settled)

theorem settles_collapse (agree : Agree members) :
    Settles members (collapse (settledMembers members)) := by
  have agree' : Agree (settledMembers members) := by
    rw [settledMembers_eq]
    intro m inSettled n inSettled' same
    obtain ⟨m, member, rfl⟩ := List.mem_map.mp inSettled
    obtain ⟨n, member', rfl⟩ := List.mem_map.mp inSettled'
    exact congrArg settled (agree m member n member' same)
  constructor
  · intro m member
    have settledMember : (m.1, m.2.settled) ∈ settledMembers members := by
      rw [settledMembers_eq]
      exact List.mem_map.mpr ⟨m, member, rfl⟩
    exact agree'.member?_collapse settledMember
  · intro m member
    have written := mem_of_mem_collapse member
    rw [settledMembers_eq] at written
    obtain ⟨n, inMembers, same⟩ := List.mem_map.mp written
    exact ⟨n, inMembers, same.symm⟩

theorem Settles.member?_eq {written : List (String × Json)} {name : String}
    (settles : Settles written members) (member : m ∈ written) (key : m.1 = name) :
    member? members name = some m.2.settled :=
  key ▸ settles.kept m member

theorem Settles.mem {written : List (String × Json)} (settles : Settles written members)
    (member : m ∈ written) : (m.1, m.2.settled) ∈ members :=
  mem_of_member? (settles.kept m member)

theorem Settles.exists_of_member? {written : List (String × Json)} {name : String} {value : Json}
    (settles : Settles written members) (found : member? members name = some value) :
    ∃ m ∈ written, m.1 = name ∧ m.2.settled = value := by
  obtain ⟨m, member, same⟩ := settles.written _ (mem_of_member? found)
  cases same
  exact ⟨m, member, rfl, rfl⟩

end Sieve.Json
