import Mathlib.Data.List.DropRight
import Mathlib.Data.List.Forall2
import Sieve.Json.Shape
import Sieve.Proofs.Json.Transcript

/-! Documents of a fixed shape. Where the transcript of a text has the shape, the reader for the shape
takes from the text what the transcript says, and leaves the same rest. -/
namespace Sieve.Json.Reader

variable {α β σ : Type}

theorem bind_of_ok {first : Reader α} {next : α → Reader β} {s rest : List Char} {a : α}
    (read : first s = .ok (a, rest)) : (first >>= next) s = next a rest := by
  change ((first s).bind fun step => next step.1 step.2) = _
  rw [read]
  rfl

theorem skipSpace_skipSpace (s : List Char) : skipSpace (skipSpace s) = skipSpace s :=
  List.dropWhile_idempotent isSpace s

section
variable {limit depth left : Nat} {isFirst : Bool} {s rest : List Char}

theorem atValue_of_begins {c : Char} (begins : skipSpace s = c :: rest) :
    atValue s = .ok ((), c :: rest) := by
  rw [atValue, begins]

theorem transcript_skipSpace : transcript limit depth (skipSpace s) = transcript limit depth s := by
  cases depth with
  | zero => simp only [transcript, value, skipSpace_skipSpace]
  | succ depth => simp only [transcript, skipSpace_skipSpace]

/-- How a transcript begins: a list, an object, or another value. -/
theorem transcript_cases {j : Json} (read : transcript limit depth s = .ok (j, rest)) :
    (∃ inner js tail, j = array js ∧ skipSpace s = '[' :: tail ∧
        items limit (transcript limit inner) tail = .ok (js, rest)) ∨
      (∃ inner ms tail, j = object ms ∧ skipSpace s = '\x7b' :: tail ∧
        members limit (keepMemberFrom (transcript limit inner)) [] tail = .ok (ms, rest)) ∨
      scalar limit (skipSpace s) = .ok (j, rest) := by
  by_cases list : ∃ tail, skipSpace s = '[' :: tail
  · obtain ⟨tail, begins⟩ := list
    cases depth with
    | zero =>
      rw [transcript, value] at read
      simp only [begins, reduceCtorEq] at read
    | succ inner =>
      rw [transcript_list begins] at read
      obtain ⟨⟨js, _⟩, found, same⟩ := map_eq_ok.mp read
      cases same
      exact .inl ⟨inner, js, tail, rfl, begins, found⟩
  · by_cases isObject : ∃ tail, skipSpace s = '\x7b' :: tail
    · obtain ⟨tail, begins⟩ := isObject
      cases depth with
      | zero =>
        rw [transcript, value] at read
        simp only [begins, reduceCtorEq] at read
      | succ inner =>
        rw [transcript_object begins] at read
        obtain ⟨⟨ms, _⟩, found, same⟩ := map_eq_ok.mp read
        cases same
        exact .inr (.inl ⟨inner, ms, tail, rfl, begins, found⟩)
    · rw [transcript_scalar (not_exists.mp list) (not_exists.mp isObject)] at read
      exact .inr (.inr read)

theorem transcript_array {js : List Json} (read : transcript limit depth s = .ok (array js, rest)) :
    ∃ inner tail, skipSpace s = '[' :: tail ∧
      items limit (transcript limit inner) tail = .ok (js, rest) := by
  rcases transcript_cases read with ⟨inner, _, tail, ⟨⟩, begins, found⟩ | ⟨_, _, _, ⟨⟩, _⟩ | other
  · exact ⟨inner, tail, begins, found⟩
  · rcases scalar_cases other with ⟨⟨⟩, _⟩ | ⟨_, ⟨⟩⟩ | ⟨_, ⟨⟩⟩ | ⟨_, _, ⟨⟩, _⟩

theorem transcript_members {ms : List (String × Json)}
    (read : transcript limit depth s = .ok (object ms, rest)) :
    ∃ inner tail, skipSpace s = '\x7b' :: tail ∧
      members limit (keepMemberFrom (transcript limit inner)) [] tail = .ok (ms, rest) := by
  rcases transcript_cases read with ⟨_, _, _, ⟨⟩, _⟩ | ⟨inner, _, tail, ⟨⟩, begins, found⟩ | other
  · exact ⟨inner, tail, begins, found⟩
  · rcases scalar_cases other with ⟨⟨⟩, _⟩ | ⟨_, ⟨⟩⟩ | ⟨_, ⟨⟩⟩ | ⟨_, _, ⟨⟩, _⟩

theorem transcript_string {t : String} (read : transcript limit depth s = .ok (.string t, rest)) :
    ∃ tail, skipSpace s = '\x22' :: tail ∧ stringBody limit [] tail = .ok (t, rest) := by
  rcases transcript_cases read with ⟨_, _, _, ⟨⟩, _⟩ | ⟨_, _, _, ⟨⟩, _⟩ | other
  rcases scalar_cases other with ⟨⟨⟩, _⟩ | ⟨_, ⟨⟩⟩ | ⟨_, ⟨⟩⟩ | ⟨_, tail, ⟨⟩, begins, found⟩
  exact ⟨tail, begins, found⟩

theorem transcript_null (read : transcript limit depth s = .ok (null, rest)) :
    ∃ tail, skipSpace s = 'n' :: tail ∧ word ['u', 'l', 'l'] tail = .ok ((), rest) := by
  rcases transcript_cases read with ⟨_, _, _, ⟨⟩, _⟩ | ⟨_, _, _, ⟨⟩, _⟩ | other
  rcases scalar_cases other with ⟨_, tail, begins, found⟩ | ⟨_, ⟨⟩⟩ | ⟨_, ⟨⟩⟩ | ⟨_, _, ⟨⟩, _⟩
  exact ⟨tail, begins, found⟩

theorem eq_null_of_transcript {j : Json} {tail : List Char}
    (read : transcript limit depth s = .ok (j, rest)) (begins : skipSpace s = 'n' :: tail) :
    j = null := by
  rcases transcript_cases read with ⟨_, _, _, _, other, _⟩ | ⟨_, _, _, _, other, _⟩ | found
  · rw [begins] at other
    cases other
  · rw [begins] at other
    cases other
  · rw [begins, scalar, if_pos rfl] at found
    obtain ⟨_, _, same⟩ := map_eq_ok.mp found
    cases same
    rfl

inductive ItemsRead (read : Reader α) : Nat → Bool → List Char → List α → List Char → Prop
  | nil {left : Nat} {isFirst : Bool} {s end_ rest : List Char}
      (ended : hasItem isFirst s = .ok (false, end_)) (closed : closeList end_ = .ok ((), rest)) :
      ItemsRead read (left + 1) isFirst s [] rest
  | cons {left : Nat} {isFirst : Bool} {s begun next rest : List Char} {x : α} {xs : List α}
      (more : hasItem isFirst s = .ok (true, begun)) (item : read begun = .ok (x, next))
      (later : ItemsRead read left false next xs rest) :
      ItemsRead read (left + 1) isFirst s (x :: xs) rest

theorem itemsFrom_eq_ok_iff {read : Reader α} {done all : List α} :
    itemsFrom read left isFirst done s = .ok (all, rest) ↔
      ∃ xs, ItemsRead read left isFirst s xs rest ∧ all = done.reverse ++ xs := by
  constructor
  · intro found
    induction left generalizing isFirst done s with
    | zero => cases found
    | succ left ih =>
      simp only [itemsFrom] at found
      split at found
      next => cases found
      next end_ ended =>
        obtain ⟨⟨⟨⟩, _⟩, closed, same⟩ := map_eq_ok.mp found
        cases same
        exact ⟨[], .nil ended closed, (List.append_nil _).symm⟩
      next begun more =>
        split at found
        next => cases found
        next x next item =>
          obtain ⟨xs, later, rfl⟩ := ih found
          exact ⟨x :: xs, .cons more item later, by simp⟩
  · rintro ⟨xs, reads, rfl⟩
    induction reads generalizing done with
    | nil ended closed => simp [itemsFrom, ended, closed, Except.map]
    | @cons left isFirst s begun next rest x xs more item later ih =>
      simp only [itemsFrom, more, item]
      rw [ih]
      simp

inductive MembersWritten (limit : Nat) (read : Reader Json) :
    Nat → Bool → List Char → List (String × Json) → List Char → Prop
  | nil {left : Nat} {isFirst : Bool} {s rest : List Char}
      (ended : memberName? limit isFirst s = .ok (none, rest)) :
      MembersWritten limit read (left + 1) isFirst s [] rest
  | cons {left : Nat} {isFirst : Bool} {s named begun next rest : List Char} {name : String}
      {j : Json} {ms : List (String × Json)}
      (more : memberName? limit isFirst s = .ok (some name, named))
      (behind : colon named = .ok ((), begun)) (value : read begun = .ok (j, next))
      (later : MembersWritten limit read left false next ms rest) :
      MembersWritten limit read (left + 1) isFirst s ((name, j) :: ms) rest

theorem keepMemberFrom_eq_ok {read : Reader Json} {done all : List (String × Json)} {name : String}
    (kept : keepMemberFrom read done name s = .ok (all, rest)) :
    ∃ begun j, colon s = .ok ((), begun) ∧ read begun = .ok (j, rest) ∧ all = done ++ [(name, j)] := by
  obtain ⟨⟨⟨⟩, begun⟩, behind, kept⟩ := bind_eq_ok.mp kept
  obtain ⟨⟨j, _⟩, value, same⟩ := bind_eq_ok.mp kept
  cases same
  exact ⟨begun, j, behind, value, rfl⟩

theorem membersWritten_of_membersFrom {read : Reader Json} {done all : List (String × Json)}
    (found : membersFrom limit (keepMemberFrom read) left isFirst done s = .ok (all, rest)) :
    ∃ ms, MembersWritten limit read left isFirst s ms rest ∧ all = done ++ ms := by
  induction left generalizing isFirst done s with
  | zero => cases found
  | succ left ih =>
    simp only [membersFrom] at found
    split at found
    next => cases found
    next ended =>
      cases found
      exact ⟨[], .nil ended, (List.append_nil _).symm⟩
    next name named more =>
      split at found
      next => cases found
      next state next kept =>
        obtain ⟨begun, j, behind, value, rfl⟩ := keepMemberFrom_eq_ok kept
        obtain ⟨ms, later, rfl⟩ := ih found
        exact ⟨(name, j) :: ms, .cons more behind value later, by simp⟩

end

/-- A reader takes from a text that a relation makes of the transcript. -/
def Takes (limit : Nat) (means : Json → α → Prop) (reader : Reader α) : Prop :=
  ∀ depth s j rest, transcript limit depth s = .ok (j, rest) →
    ∀ x, means j x → reader s = .ok (x, rest)

def IsString (j : Json) (t : String) : Prop :=
  j = .string t

inductive Nullable (means : Json → α → Prop) : Json → Option α → Prop
  | null : Nullable means .null none
  | some {j : Json} {x : α} (meant : means j x) : Nullable means j (some x)

def IsListOf (means : Json → α → Prop) (j : Json) (xs : List α) : Prop :=
  ∃ js, j = .array js ∧ List.Forall₂ means js xs

def IsMapOf (means : Json → α → Prop) (j : Json) (xs : List (String × α)) : Prop :=
  ∃ ms, j = .object ms ∧ List.Forall₂ (fun m x => m.1 = x.1 ∧ means m.2 x.2) ms xs

def IsVariant (variants : List (String × α)) (j : Json) (x : α) : Prop :=
  ∃ name, (j = .string name ∨ j = .object [(name, .null)]) ∧
    (variants.find? (·.1 == name)).map Prod.snd = some x

variable {limit : Nat} {means : Json → α → Prop} {item : Reader α}

theorem takes_string (limit : Nat) : Takes limit IsString (string limit) := by
  rintro depth s _ rest read t rfl
  obtain ⟨tail, begins, body⟩ := transcript_string read
  rw [string, bind_of_ok (atValue_of_begins begins)]
  exact (if_pos rfl).trans body

theorem Takes.nullable (takes : Takes limit means item) (noNull : ∀ x, ¬means .null x) :
    Takes limit (Nullable means) (nullable item) := by
  intro depth s j rest read x meant
  cases meant with
  | null =>
    obtain ⟨tail, begins, letters⟩ := transcript_null read
    simp only [Reader.nullable, begins, letters]
    rfl
  | @some _ x meant =>
    have other : ∀ tail, skipSpace s ≠ 'n' :: tail := by
      rintro tail begins
      rw [eq_null_of_transcript read begins] at meant
      exact noNull x meant
    have taken := takes depth (skipSpace s) j rest (transcript_skipSpace.trans read) x meant
    unfold Reader.nullable
    split
    next begins => exact absurd begins (other _)
    next => rw [taken]; rfl

theorem Takes.items {R : Reader Json} {js : List Json} {xs : List α} {left : Nat} {isFirst : Bool}
    {s rest : List Char} (takes : ∀ s j rest, R s = .ok (j, rest) → ∀ x, means j x →
      item s = .ok (x, rest)) (reads : ItemsRead R left isFirst s js rest)
    (meant : List.Forall₂ means js xs) : ItemsRead item left isFirst s xs rest := by
  induction reads generalizing xs with
  | nil ended closed =>
    cases meant
    exact .nil ended closed
  | cons more read _ ih =>
    cases meant with
    | cons first later => exact .cons more (takes _ _ _ read _ first) (ih later)

theorem Takes.listOf (takes : Takes limit means item) :
    Takes limit (IsListOf means) (listOf limit item) := by
  rintro depth s _ rest read xs ⟨js, rfl, meant⟩
  obtain ⟨inner, tail, begins, found⟩ := transcript_array read
  obtain ⟨_, reads, rfl⟩ := itemsFrom_eq_ok_iff.mp found
  rw [Reader.listOf, bind_of_ok (atValue_of_begins begins)]
  exact itemsFrom_eq_ok_iff.mpr ⟨xs, Takes.items (takes inner) reads meant, rfl⟩

/-- States that members lead through, one after the other. -/
inductive Chain (step : σ → String × Json → σ → Prop) : σ → List (String × Json) → σ → Prop
  | nil (state : σ) : Chain step state [] state
  | cons {state next last : σ} {m : String × Json} {ms : List (String × Json)}
      (first : step state m next) (later : Chain step next ms last) :
      Chain step state (m :: ms) last

def StepTakes (limit : Nat) (step : σ → String × Json → σ → Prop) (run : σ → String → Reader σ) :
    Prop :=
  ∀ depth state name s begun j rest, colon s = .ok ((), begun) →
    transcript limit depth begun = .ok (j, rest) →
    ∀ next, step state (name, j) next → run state name s = .ok (next, rest)

theorem StepTakes.membersFrom {step : σ → String × Json → σ → Prop} {run : σ → String → Reader σ}
    (takes : StepTakes limit step run) {inner left : Nat} {isFirst : Bool} {s rest : List Char}
    {ms : List (String × Json)} {start last : σ}
    (written : MembersWritten limit (transcript limit inner) left isFirst s ms rest)
    (chain : Chain step start ms last) :
    membersFrom limit run left isFirst start s = .ok (last, rest) := by
  induction written generalizing start with
  | nil ended =>
    cases chain
    simp only [Reader.membersFrom, ended]
  | cons more behind value _ ih =>
    cases chain with
    | cons first later =>
      have taken := takes inner start _ _ _ _ _ behind value _ first
      simp only [Reader.membersFrom, more, taken]
      exact ih later

theorem StepTakes.members {step : σ → String × Json → σ → Prop} {run : σ → String → Reader σ}
    (takes : StepTakes limit step run) {inner : Nat} {s rest : List Char}
    {ms : List (String × Json)} {start last : σ}
    (written : members limit (keepMemberFrom (transcript limit inner)) [] s = .ok (ms, rest))
    (chain : Chain step start ms last) : members limit run start s = .ok (last, rest) := by
  obtain ⟨_, written, rfl⟩ := membersWritten_of_membersFrom written
  exact takes.membersFrom written chain

theorem Takes.mapOf (takes : Takes limit means item) :
    Takes limit (IsMapOf means) (mapOf limit item) := by
  rintro depth s _ rest read xs ⟨ms, rfl, meant⟩
  obtain ⟨inner, tail, begins, found⟩ := transcript_members read
  rw [Reader.mapOf, bind_of_ok (atValue_of_begins begins)]
  have step : StepTakes limit (fun done m next => ∃ x, means m.2 x ∧ next = (m.1, x) :: done)
      fun done name => do
        colon
        return (name, ← item) :: done := by
    rintro depth state name s begun j rest behind value _ ⟨x, meant, rfl⟩
    exact (bind_of_ok behind).trans (bind_of_ok (takes depth begun j rest value x meant))
  have chain (done : List (String × α)) :
      Chain (fun done m next => ∃ x, means m.2 x ∧ next = (m.1, x) :: done) done ms
        (xs.reverse ++ done) := by
    clear found read
    induction meant generalizing done with
    | nil => exact .nil done
    | @cons m x ms xs first _ ih =>
      have later := ih ((m.1, x.2) :: done)
      rw [first.1] at later
      rw [List.reverse_cons, List.append_assoc]
      exact .cons ⟨x.2, first.2, by rw [first.1]⟩ later
  have taken := step.members found (chain [])
  exact map_eq_ok.mpr ⟨_, taken, by simp⟩

/-- After the last item, the end of the list can be looked for once more. -/
theorem closeList_of_hasItem {isFirst : Bool} {s end_ : List Char}
    (ended : hasItem isFirst s = .ok (false, end_)) : closeList s = closeList end_ := by
  have here : end_ = skipSpace s := by
    unfold hasItem at ended
    split at ended
    next => cases ended
    next c rest begins =>
      split_ifs at ended
      · cases ended
        exact begins.symm
      · cases ended
      · split at ended <;> cases ended
  rw [here, closeList, closeList, skipSpace_skipSpace]

theorem skipSpace_of_memberName? {isFirst : Bool} {s rest : List Char}
    (ended : memberName? limit isFirst s = .ok (none, rest)) : skipSpace s = '\x7d' :: rest := by
  unfold memberName? at ended
  split at ended
  next => cases ended
  next c tail begins =>
    split_ifs at ended with brace
    · cases ended
      rw [begins, brace]
    · obtain ⟨_, _, same⟩ := map_eq_ok.mp ended
      cases same
    · split at ended
      next => cases ended
      next =>
        split_ifs at ended
        obtain ⟨_, _, same⟩ := map_eq_ok.mp ended
        cases same

theorem membersWritten_one {R : Reader Json} {left : Nat} {isFirst : Bool} {s rest : List Char}
    {name : String} {j : Json} (written : MembersWritten limit R left isFirst s [(name, j)] rest) :
    ∃ named begun next, memberName? limit isFirst s = .ok (some name, named) ∧
      colon named = .ok ((), begun) ∧ R begun = .ok (j, next) ∧
      memberName? limit false next = .ok (none, rest) := by
  cases written with
  | cons more behind value later =>
    cases later with
    | nil ended => exact ⟨_, _, _, more, behind, value, ended⟩

theorem variantNamed_of_found {variants : List (String × α)} {name : String} {x : α}
    (found : (variants.find? (·.1 == name)).map Prod.snd = some x) (s : List Char) :
    variantNamed variants name s = .ok (x, s) := by
  obtain ⟨variant, here, rfl⟩ := Option.map_eq_some_iff.mp found
  rw [variantNamed, here]
  rfl

theorem takes_variant (limit : Nat) (variants : List (String × α)) :
    Takes limit (IsVariant variants) (variant limit variants) := by
  rintro depth s j rest read x ⟨name, form, found⟩
  rcases form with rfl | rfl
  · obtain ⟨tail, begins, body⟩ := transcript_string read
    rw [variant, bind_of_ok (atValue_of_begins begins)]
    exact (bind_of_ok body).trans (variantNamed_of_found found rest)
  · obtain ⟨inner, tail, begins, members⟩ := transcript_members read
    obtain ⟨_, written, same⟩ := membersWritten_of_membersFrom members
    rw [List.nil_append] at same
    subst same
    obtain ⟨named, begun, next, more, behind, value, ended⟩ := membersWritten_one written
    obtain ⟨letters, begins', spelled⟩ := transcript_null value
    have isNull : unit limit begun = .ok ((), next) :=
      (bind_of_ok (atValue_of_begins begins')).trans spelled
    rw [variant, bind_of_ok (atValue_of_begins begins)]
    refine (bind_of_ok more).trans ((bind_of_ok (variantNamed_of_found found named)).trans
      ((bind_of_ok behind).trans ((bind_of_ok isNull).trans ?_)))
    simp only [skipSpace_of_memberName? ended, if_true]

inductive IsRecord (step : σ → String × Json → σ → Prop) (start : σ)
    (finish : σ → Except Fault α) (inOrder : List Json → α → Prop) : Json → α → Prop
  | members {ms : List (String × Json)} {last : σ} {x : α} (chain : Chain step start ms last)
      (finished : finish last = .ok x) : IsRecord step start finish inOrder (.object ms) x
  | list {js : List Json} {x : α} (fields : inOrder js x) :
      IsRecord step start finish inOrder (.array js) x

def FieldsTake (limit : Nat) (inOrder : List Json → α → Prop) (fields : Reader α) : Prop :=
  ∀ inner left s js rest, ItemsRead (transcript limit inner) left true s js rest →
    ∀ x, inOrder js x → ∃ end_, fields s = .ok (x, end_) ∧ closeList end_ = .ok ((), rest)

theorem takes_record {expected : String} {start : σ} {step : σ → String × Json → σ → Prop}
    {run : σ → String → Reader σ} {finish : σ → Except Fault α} {inOrder : List Json → α → Prop}
    {fields : Reader α} (stepTakes : StepTakes limit step run)
    (fieldsTake : FieldsTake limit inOrder fields) :
    Takes limit (IsRecord step start finish inOrder)
      (record limit expected start run finish fields) := by
  intro depth s j rest read x meant
  cases meant with
  | members chain finished =>
    obtain ⟨inner, tail, begins, found⟩ := transcript_members read
    rw [record, bind_of_ok (atValue_of_begins begins)]
    simp only [stepTakes.members found chain, finished]
    rfl
  | list inOrder =>
    obtain ⟨inner, tail, begins, found⟩ := transcript_array read
    obtain ⟨_, reads, rfl⟩ := itemsFrom_eq_ok_iff.mp found
    obtain ⟨end_, taken, closed⟩ := fieldsTake _ _ _ _ _ reads x inOrder
    rw [record, bind_of_ok (atValue_of_begins begins)]
    simp only [taken, closed]
    rfl

theorem field_of_fresh {name : String} {x : α} {s begun rest : List Char}
    (behind : colon s = .ok ((), begun)) (taken : item begun = .ok (x, rest)) :
    field name none item s = .ok (x, rest) :=
  (bind_of_ok behind).trans taken

theorem nextField_of_item {isFirst : Bool} {absent : Except Fault α} {x : α}
    {s begun rest : List Char} (more : hasItem isFirst s = .ok (true, begun))
    (taken : item begun = .ok (x, rest)) : nextField isFirst item absent s = .ok (x, rest) :=
  (bind_of_ok more).trans taken

/-- A whole text is read as its transcript says. -/
theorem wholeText_of_takes {reader : Nat → Reader α} {text : String} {w : Json} {x : α}
    (takes : ∀ limit, Takes limit means (reader limit)) (transcribed : transcribe text = .ok w)
    (meant : means w x) : wholeText reader text = .ok x := by
  unfold transcribe wholeText at transcribed
  unfold wholeText
  dsimp only at transcribed ⊢
  split at transcribed
  next => cases transcribed
  next j rest read =>
    split_ifs at transcribed with ended
    cases transcribed
    rw [takes _ _ _ _ _ read x meant]
    exact if_pos ended

end Sieve.Json.Reader
