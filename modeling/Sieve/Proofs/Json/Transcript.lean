import Mathlib.Tactic.SplitIfs
import Sieve.Json.Reader
import Sieve.Proofs.Outcome

/-! JSON texts as they are written. A transcript has every member of every object, in the order of the
text; in the value that a text stands for, only the last member of each name counts. -/
namespace Sieve.Json

mutual

def same : Json → Json → Bool
  | null, null => true
  | bool a, bool b => a == b
  | number a, number b => a == b
  | string a, string b => a == b
  | array as, array bs => sameItems as bs
  | object as, object bs => sameMembers as bs
  | _, _ => false

def sameItems : List Json → List Json → Bool
  | [], [] => true
  | a :: as, b :: bs => same a b && sameItems as bs
  | _, _ => false

def sameMembers : List (String × Json) → List (String × Json) → Bool
  | [], [] => true
  | (n, a) :: as, (m, b) :: bs => n == m && same a b && sameMembers as bs
  | _, _ => false

end

mutual

theorem same_iff (a b : Json) : same a b = true ↔ a = b := by
  cases a <;> cases b <;> simp [same, sameItems_iff, sameMembers_iff]

theorem sameItems_iff (as bs : List Json) : sameItems as bs = true ↔ as = bs := by
  cases as with
  | nil => cases bs <;> simp [sameItems]
  | cons a as =>
    cases bs with
    | nil => simp [sameItems]
    | cons b bs => simp [sameItems, same_iff a b, sameItems_iff as bs]

theorem sameMembers_iff (as bs : List (String × Json)) : sameMembers as bs = true ↔ as = bs := by
  match as, bs with
  | [], [] => simp [sameMembers]
  | [], (_, _) :: _ => simp [sameMembers]
  | (_, _) :: _, [] => simp [sameMembers]
  | (n, a) :: as, (m, b) :: bs =>
    simp [sameMembers, same_iff a b, sameMembers_iff as bs, and_assoc]

end

instance : DecidableEq Json := fun a b =>
  decidable_of_iff (same a b = true) (same_iff a b)

/-- Members with each name once: the last value of a name, at the place of the first. -/
def collapse (members : List (String × Json)) : List (String × Json) :=
  members.foldl (fun done m => setMember m.1 m.2 done) []

theorem collapse_concat (members : List (String × Json)) (m : String × Json) :
    collapse (members ++ [m]) = setMember m.1 m.2 (collapse members) := by
  rw [collapse, List.foldl_append]
  rfl

mutual

def settled : Json → Json
  | null => null
  | bool b => bool b
  | number n => number n
  | string s => string s
  | array items => array (settledItems items)
  | object members => object (collapse (settledMembers members))

def settledItems : List Json → List Json
  | [] => []
  | item :: rest => settled item :: settledItems rest

def settledMembers : List (String × Json) → List (String × Json)
  | [] => []
  | (name, value) :: rest => (name, settled value) :: settledMembers rest

end

theorem settledItems_eq (items : List Json) : settledItems items = items.map settled := by
  induction items with
  | nil => rfl
  | cons item rest ih => rw [settledItems, ih, List.map_cons]

theorem settledMembers_eq (members : List (String × Json)) :
    settledMembers members = members.map fun m => (m.1, settled m.2) := by
  induction members with
  | nil => rfl
  | cons m rest ih => rw [settledMembers, ih, List.map_cons]

namespace Reader

def keepMemberFrom (read : Reader Json) (done : List (String × Json)) (name : String) :
    Reader (List (String × Json)) := do
  colon
  return done ++ [(name, ← read)]

def transcript (limit : Nat) : Nat → Reader Json
  | 0 => value limit 0
  | depth + 1 => fun s =>
    match skipSpace s with
    | '[' :: rest =>
      (items limit (transcript limit depth) rest).map fun read => (array read.1, read.2)
    | '\x7b' :: rest =>
      (members limit (keepMemberFrom (transcript limit depth)) [] rest).map fun read =>
        (object read.1, read.2)
    | rest => scalar limit rest

end Reader

def transcribe (text : String) : Except Fault Json :=
  Reader.wholeText (fun limit => Reader.transcript limit maxNesting) text

namespace Reader

variable {α β σ τ : Type}

/-- Two readers that go the same way, where the second makes something else of what is read. -/
def Follows (make : α → β) (first : Reader α) (second : Reader β) : Prop :=
  ∀ s, second s = (first s).map fun read => (make read.1, read.2)

theorem Follows.items {make : α → β} {first : Reader α} {second : Reader β}
    (follows : Follows make first second) (limit : Nat) :
    Follows (List.map make) (items limit first) (items limit second) := by
  have loop (left : Nat) : ∀ (isFirst : Bool) (done : List α) (s : List Char),
      itemsFrom second left isFirst (done.map make) s =
        (itemsFrom first left isFirst done s).map fun read => (read.1.map make, read.2) := by
    induction left with
    | zero => exact fun _ _ _ => rfl
    | succ left ih =>
      intro isFirst done s
      simp only [itemsFrom]
      rcases hasItem isFirst s with fault | ⟨more, rest⟩
      · rfl
      · cases more with
        | false =>
          dsimp only
          rcases closeList rest with fault | closed
          · rfl
          · simp [Except.map]
        | true =>
          dsimp only
          rw [follows rest]
          rcases first rest with fault | ⟨x, rest⟩
          · rfl
          · exact ih false (x :: done) rest
  exact loop limit true []

theorem Follows.members {make : σ → τ} {first : σ → String → Reader σ}
    {second : τ → String → Reader τ}
    (follows : ∀ state name, Follows make (first state name) (second (make state) name))
    (limit : Nat) (start : σ) :
    Follows make (members limit first start) (members limit second (make start)) := by
  have loop (left : Nat) : ∀ (isFirst : Bool) (state : σ) (s : List Char),
      membersFrom limit second left isFirst (make state) s =
        (membersFrom limit first left isFirst state s).map fun read => (make read.1, read.2) := by
    induction left with
    | zero => exact fun _ _ _ => rfl
    | succ left ih =>
      intro isFirst state s
      simp only [membersFrom]
      rcases memberName? limit isFirst s with fault | ⟨_ | name, rest⟩
      · rfl
      · rfl
      · dsimp only
        rw [follows state name rest]
        rcases first state name rest with fault | ⟨state, rest⟩
        · rfl
        · exact ih false state rest
  exact loop limit true start

theorem scalar_cases {limit : Nat} {s rest : List Char} {j : Json}
    (read : scalar limit s = .ok (j, rest)) :
    (j = null ∧ ∃ tail, s = 'n' :: tail ∧ word ['u', 'l', 'l'] tail = .ok ((), rest)) ∨
      (∃ b, j = bool b) ∨ (∃ n, j = number n) ∨
      ∃ t tail, j = Json.string t ∧ s = '\x22' :: tail ∧ stringBody limit [] tail = .ok (t, rest) := by
  unfold scalar at read
  split at read
  next => cases read
  next c tail =>
    split_ifs at read with null yes no minus digit quote
    · obtain ⟨⟨⟨⟩, _⟩, found, same⟩ := map_eq_ok.mp read
      cases same
      exact .inl ⟨rfl, tail, by rw [null], found⟩
    · obtain ⟨_, _, same⟩ := map_eq_ok.mp read
      cases same
      exact .inr (.inl ⟨true, rfl⟩)
    · obtain ⟨_, _, same⟩ := map_eq_ok.mp read
      cases same
      exact .inr (.inl ⟨false, rfl⟩)
    · obtain ⟨_, _, same⟩ := map_eq_ok.mp read
      cases same
      exact .inr (.inr (.inl ⟨_, rfl⟩))
    · obtain ⟨_, _, same⟩ := map_eq_ok.mp read
      cases same
      exact .inr (.inr (.inl ⟨_, rfl⟩))
    · obtain ⟨⟨t, _⟩, found, same⟩ := map_eq_ok.mp read
      cases same
      exact .inr (.inr (.inr ⟨t, tail, rfl, by rw [quote], found⟩))

theorem settled_of_scalar {limit : Nat} {s rest : List Char} {j : Json}
    (read : scalar limit s = .ok (j, rest)) : j.settled = j := by
  rcases scalar_cases read with ⟨rfl, _⟩ | ⟨b, rfl⟩ | ⟨n, rfl⟩ | ⟨t, _, rfl, _⟩ <;> rfl

theorem scalar_follows (limit : Nat) : Follows settled (scalar limit) (scalar limit) := by
  intro s
  cases read : scalar limit s with
  | error fault => rfl
  | ok read' =>
    have same := settled_of_scalar read
    rw [Except.map, same]

/-- A member that is written last counts instead of those of its name before it. -/
theorem setMemberFrom_follows {first second : Reader Json} (follows : Follows settled first second)
    (done : List (String × Json)) (name : String) :
    Follows (fun members => collapse (settledMembers members)) (keepMemberFrom first done name)
      (setMemberFrom second (collapse (settledMembers done)) name) := by
  intro s
  change (do
    let behind ← colon s
    let read ← second behind.2
    pure (setMember name read.1 (collapse (settledMembers done)), read.2)) = Except.map _ (do
      let behind ← colon s
      let read ← first behind.2
      pure (done ++ [(name, read.1)], read.2))
  rcases colon s with fault | ⟨_, rest⟩
  · rfl
  · dsimp only [bind, Except.bind]
    rw [follows rest]
    rcases first rest with fault | ⟨j, rest⟩
    · rfl
    · have last : collapse (settledMembers (done ++ [(name, j)])) =
          setMember name j.settled (collapse (settledMembers done)) := by
        rw [settledMembers_eq, List.map_append, ← settledMembers_eq]
        exact collapse_concat _ _
      simp only [Except.map, pure, Except.pure, last]

section
variable {limit depth : Nat} {s rest : List Char}

theorem transcript_list (begins : skipSpace s = '[' :: rest) :
    transcript limit (depth + 1) s =
      (Reader.items limit (transcript limit depth) rest).map fun read => (array read.1, read.2) := by
  rw [transcript]
  simp only [begins]

theorem transcript_object (begins : skipSpace s = '\x7b' :: rest) :
    transcript limit (depth + 1) s =
      (Reader.members limit (keepMemberFrom (transcript limit depth)) [] rest).map fun read =>
        (object read.1, read.2) := by
  rw [transcript]
  simp only [begins]

theorem transcript_scalar (noList : ∀ tail, skipSpace s ≠ '[' :: tail)
    (noObject : ∀ tail, skipSpace s ≠ '\x7b' :: tail) :
    transcript limit depth s = scalar limit (skipSpace s) := by
  cases depth with
  | zero =>
    rw [transcript, value]
    dsimp only
    split
    next begins => exact absurd begins (noList _)
    next begins => exact absurd begins (noObject _)
    next => rfl
  | succ depth =>
    rw [transcript]
    dsimp only
    split
    next begins => exact absurd begins (noList _)
    next begins => exact absurd begins (noObject _)
    next => rfl

end

theorem value_follows (limit depth : Nat) :
    Follows settled (transcript limit depth) (value limit depth) := by
  induction depth with
  | zero =>
    intro s
    rw [transcript, value]
    dsimp only
    split
    · rfl
    · rfl
    · exact scalar_follows limit _
  | succ depth ih =>
    intro s
    rw [value]
    dsimp only
    split
    next rest begins =>
      rw [transcript_list begins, ih.items limit rest]
      rcases items limit (transcript limit depth) rest with fault | read
      · rfl
      · simp only [Except.map, settled, settledItems_eq]
    next rest begins =>
      have loop := Follows.members (setMemberFrom_follows ih) limit [] rest
      have start : collapse (settledMembers []) = [] := rfl
      rw [start] at loop
      rw [transcript_object begins, loop]
      rcases members limit (keepMemberFrom (transcript limit depth)) [] rest with fault | read
      · rfl
      · rfl
    next noList noObject =>
      rw [transcript_scalar noList noObject]
      exact scalar_follows limit _

end Reader

instance (text : String) (w : Json) : Decidable (transcribe text = .ok w) :=
  match transcribe text with
  | .ok j => decidable_of_iff (j = w) (by simp)
  | .error _ => isFalse (by simp)

/-- A text stands for the settled value of its transcript. -/
theorem parse_eq (text : String) : parse text = (transcribe text).map settled := by
  unfold parse transcribe Reader.wholeText
  dsimp only
  rw [Reader.value_follows _ maxNesting]
  rcases Reader.transcript (text.toList.length + 1) maxNesting text.toList with fault | ⟨j, rest⟩
  · rfl
  · dsimp only [Except.map]
    split <;> rfl

end Sieve.Json
