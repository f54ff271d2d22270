import Mathlib.Data.List.Flatten
import Sieve.Json.Written
import Sieve.Proofs.Json.Shape

/-! JSON texts are read as the values that they were written for, as far as these have no numbers. -/
namespace Sieve.Json
open Reader

inductive Plain : Nat → Json → Prop
  | null {depth : Nat} : Plain depth .null
  | bool {depth : Nat} (b : Bool) : Plain depth (.bool b)
  | string {depth : Nat} (s : String) : Plain depth (.string s)
  | array {depth : Nat} {items : List Json} (each : ∀ item ∈ items, Plain depth item) :
      Plain (depth + 1) (.array items)
  | object {depth : Nat} {members : List (String × Json)}
      (each : ∀ m ∈ members, Plain depth m.2) : Plain (depth + 1) (.object members)

theorem length_le_flatMap {α : Type} {f : α → List Char} {xs : List α}
    (filled : ∀ x ∈ xs, f x ≠ []) : xs.length ≤ (xs.flatMap f).length := by
  induction xs with
  | nil => exact Nat.le_refl 0
  | cons x xs ih =>
    obtain ⟨here, later⟩ := List.forall_mem_cons.mp filled
    have first := List.length_pos_of_ne_nil here
    have others := ih later
    rw [List.flatMap_cons, List.length_append, List.length_cons]
    omega

section Strings

variable {limit : Nat} {done rest : List Char}

theorem escapedChar_ne_nil (c : Char) : escapedChar c ≠ [] := by
  unfold escapedChar
  split_ifs <;> exact List.cons_ne_nil _ _

theorem fourHex_control {n : Nat} (small : n < 32) :
    fourHex ('0' :: '0' :: Text.hexDigit (n / 16) :: Text.hexDigit (n % 16) :: rest) =
      .ok (n, rest) := by
  have digits : ∀ m < 32,
      Text.ofHex? ['0', '0', Text.hexDigit (m / 16), Text.hexDigit (m % 16)] = some m ∧
        (Text.hexDigit (m / 16)).utf8Size = 1 ∧ (Text.hexDigit (m % 16)).utf8Size = 1 := by
    decide
  obtain ⟨value, first, second⟩ := digits n small
  have enough : ¬(['0', '0', Text.hexDigit (n / 16), Text.hexDigit (n % 16)].foldl
      (fun bytes c => bytes + c.utf8Size) 0 < 4) := by
    simp only [List.foldl_cons, List.foldl_nil, first, second]
    decide
  rw [fourHex]
  simp only [List.take_succ_cons, List.take_zero, if_neg enough, value]

theorem escape_control {c : Char} (control : c.toNat < 32) :
    escape ('u' :: '0' :: '0' :: Text.hexDigit (c.toNat / 16) :: Text.hexDigit (c.toNat % 16) ::
      rest) = .ok (c, rest) := by
  have noLow : isLowSurrogate c.toNat = false := by
    simp only [isLowSurrogate, Bool.and_eq_false_iff, decide_eq_false_iff_not]
    omega
  have noHigh : isHighSurrogate c.toNat = false := by
    simp only [isHighSurrogate, Bool.and_eq_false_iff, decide_eq_false_iff_not]
    omega
  change numberedChar _ = _
  rw [numberedChar, bind_of_ok (fourHex_control control), noLow, noHigh]
  exact congrArg (fun d => Except.ok (d, rest)) (Char.ofNat_toNat c)

theorem stringBody_escape {c : Char} {s : List Char} (escaped : escape s = .ok (c, rest)) :
    stringBody (limit + 1) done ('\\' :: s) = stringBody limit (c :: done) rest := by
  simp only [stringBody, escaped]
  rfl

theorem stringBody_escapedChar (c : Char) :
    stringBody (limit + 1) done (escapedChar c ++ rest) = stringBody limit (c :: done) rest := by
  unfold escapedChar
  -- Seven characters have escapes of their own, the other controls are written by number.
  split_ifs with quote backslash backspace feed line back tab control
  · subst quote
    exact stringBody_escape rfl
  · subst backslash
    exact stringBody_escape rfl
  · subst backspace
    exact stringBody_escape rfl
  · subst feed
    exact stringBody_escape rfl
  · subst line
    exact stringBody_escape rfl
  · subst back
    exact stringBody_escape rfl
  · subst tab
    exact stringBody_escape rfl
  · exact stringBody_escape (escape_control control)
  · rw [List.singleton_append, stringBody]
    simp only [if_neg quote, if_neg backslash, if_neg control]

theorem stringBody_flatMap {cs : List Char} (enough : cs.length < limit) :
    stringBody limit done (cs.flatMap escapedChar ++ '\x22' :: rest) =
      .ok (String.ofList (done.reverse ++ cs), rest) := by
  induction cs generalizing limit done with
  | nil =>
    obtain ⟨limit, rfl⟩ := Nat.exists_eq_add_of_lt enough
    simp [stringBody]
  | cons c cs ih =>
    obtain _ | limit := limit
    · cases enough
    · rw [List.flatMap_cons, List.append_assoc, stringBody_escapedChar,
        ih (Nat.lt_of_succ_lt_succ enough), List.reverse_cons, List.append_assoc]
      rfl

theorem length_lt_writtenString (t : String) : t.toList.length < (writtenString t).length := by
  have escaped : t.toList.length ≤ (t.toList.flatMap escapedChar).length :=
    length_le_flatMap fun c _ => escapedChar_ne_nil c
  rw [writtenString, List.length_append, List.length_cons]
  omega

theorem stringBody_written {t : String} (enough : (writtenString t).length ≤ limit) :
    stringBody limit [] (t.toList.flatMap escapedChar ++ '\x22' :: rest) = .ok (t, rest) := by
  have shorter := length_lt_writtenString t
  rw [stringBody_flatMap (by omega), List.reverse_nil, List.nil_append, String.ofList_toList]

end Strings

section Separated

variable {α : Type} {f : α → List Char} {xs : List α}

def separated (f : α → List Char) : List α → List Char
  | [] => []
  | x :: rest => f x ++ rest.flatMap fun next => ',' :: f next

def writtenMember (m : String × Json) : List Char :=
  writtenString m.1 ++ ':' :: written m.2

theorem writtenItems_eq (items : List Json) : writtenItems items = separated written items := by
  match items with
  | [] => rfl
  | [item] => rw [writtenItems, separated, List.flatMap_nil, List.append_nil]
  | item :: next :: rest =>
    rw [writtenItems, writtenItems_eq (next :: rest)]
    rfl

theorem writtenMembers_eq (members : List (String × Json)) :
    writtenMembers members = separated writtenMember members := by
  match members with
  | [] => rfl
  | [(name, value)] => rw [writtenMembers, separated, List.flatMap_nil, List.append_nil, writtenMember]
  | (name, value) :: next :: rest =>
    rw [writtenMembers, writtenMembers_eq (next :: rest)]
    simp [separated, writtenMember]

theorem sublist_separated {x : α} (member : x ∈ xs) : (f x).Sublist (separated f xs) := by
  cases xs with
  | nil => cases member
  | cons y rest =>
    rcases List.mem_cons.mp member with rfl | later
    · exact List.sublist_append_left ..
    · have inRest := (List.singleton_sublist.mpr later).flatMap fun next => ',' :: f next
      rw [List.flatMap_singleton] at inRest
      exact (List.sublist_cons_self ',' (f x)).trans (inRest.trans (List.sublist_append_right ..))

theorem length_le_separated (filled : ∀ x ∈ xs, f x ≠ []) :
    xs.length ≤ (separated f xs).length := by
  cases xs with
  | nil => exact Nat.le_refl 0
  | cons y rest =>
    have first := List.length_pos_of_ne_nil (filled y List.mem_cons_self)
    have later : rest.length ≤ (rest.flatMap fun next => ',' :: f next).length :=
      length_le_flatMap fun _ _ => List.cons_ne_nil _ _
    rw [separated, List.length_append, List.length_cons]
    omega

end Separated

section Values

variable {limit depth left : Nat} {rest : List Char} {j : Json} {R : Reader Json}

theorem skipSpace_cons {c : Char} (visible : isSpace c = false) :
    skipSpace (c :: rest) = c :: rest := by
  rw [skipSpace, List.dropWhile_cons_of_neg (by simp [visible])]

theorem Plain.begins (plain : Plain depth j) :
    ∃ c tail, written j = c :: tail ∧ isSpace c = false ∧ c ≠ ']' := by
  cases plain with
  | null => exact ⟨_, _, rfl, rfl, by decide⟩
  | bool b => cases b <;> exact ⟨_, _, rfl, rfl, by decide⟩
  | string t => exact ⟨_, _, rfl, rfl, by decide⟩
  | array each =>
    rw [written]
    exact ⟨_, _, rfl, rfl, by decide⟩
  | object each =>
    rw [written]
    exact ⟨_, _, rfl, rfl, by decide⟩

theorem Plain.written_ne_nil (plain : Plain depth j) : written j ≠ [] := by
  obtain ⟨c, tail, begins, _⟩ := plain.begins
  rw [begins]
  exact List.cons_ne_nil c tail

/-- Whether a reader takes a value from its text, whatever stands behind it. -/
def ReadsBack (R : Reader Json) (j : Json) : Prop :=
  ∀ rest, R (written j ++ rest) = .ok (j, rest)

theorem hasItem_first (plain : Plain depth j) :
    hasItem true (written j ++ rest) = .ok (true, written j ++ rest) := by
  obtain ⟨c, tail, begins, visible, inside⟩ := plain.begins
  rw [begins, List.cons_append, hasItem, skipSpace_cons visible]
  simp only [if_neg inside, if_true]

theorem hasItem_later (plain : Plain depth j) :
    hasItem false (',' :: (written j ++ rest)) = .ok (true, written j ++ rest) := by
  obtain ⟨c, tail, begins, visible, inside⟩ := plain.begins
  rw [begins, List.cons_append, hasItem, skipSpace_cons rfl]
  dsimp only
  rw [if_neg (by decide), if_neg (by decide), if_pos rfl, skipSpace_cons visible]
  split
  next none => cases none
  next ended =>
    cases ended
    exact absurd rfl inside
  next => rfl

theorem itemsRead_flatMap {items : List Json} (plain : ∀ item ∈ items, Plain depth item)
    (each : ∀ item ∈ items, ReadsBack R item) (enough : items.length < left) :
    ItemsRead R left false (items.flatMap (fun next => ',' :: written next) ++ ']' :: rest) items
      rest := by
  induction items generalizing left with
  | nil =>
    obtain _ | left := left
    · cases enough
    · exact .nil rfl rfl
  | cons item items ih =>
    obtain _ | left := left
    · cases enough
    · obtain ⟨plain, laterPlain⟩ := List.forall_mem_cons.mp plain
      obtain ⟨read, laterRead⟩ := List.forall_mem_cons.mp each
      rw [List.flatMap_cons, List.cons_append, List.cons_append, List.append_assoc]
      exact .cons (hasItem_later plain) (read _) (ih laterPlain laterRead (Nat.lt_of_succ_lt_succ enough))

theorem items_separated {items : List Json} (plain : ∀ item ∈ items, Plain depth item)
    (each : ∀ item ∈ items, ReadsBack R item) (enough : items.length < limit) :
    Reader.items limit R (separated written items ++ ']' :: rest) = .ok (items, rest) := by
  refine itemsFrom_eq_ok_iff.mpr ⟨items, ?_, rfl⟩
  obtain _ | limit := limit
  · cases enough
  · cases items with
    | nil => exact .nil rfl rfl
    | cons item items =>
      obtain ⟨plain, laterPlain⟩ := List.forall_mem_cons.mp plain
      obtain ⟨read, laterRead⟩ := List.forall_mem_cons.mp each
      rw [separated, List.append_assoc]
      exact .cons (hasItem_first plain) (read _)
        (itemsRead_flatMap laterPlain laterRead (Nat.lt_of_succ_lt_succ enough))

theorem writtenMember_append (m : String × Json) :
    writtenMember m ++ rest =
      '\x22' :: (m.1.toList.flatMap escapedChar ++ '\x22' :: ':' :: (written m.2 ++ rest)) := by
  simp [writtenMember, writtenString]

theorem memberName?_first {m : String × Json} (short : (writtenString m.1).length ≤ limit) :
    memberName? limit true (writtenMember m ++ rest) = .ok (some m.1, ':' :: (written m.2 ++ rest)) := by
  rw [writtenMember_append, memberName?, skipSpace_cons rfl]
  simp only [stringBody_written short]
  rfl

theorem memberName?_later {m : String × Json} (short : (writtenString m.1).length ≤ limit) :
    memberName? limit false (',' :: (writtenMember m ++ rest)) =
      .ok (some m.1, ':' :: (written m.2 ++ rest)) := by
  have quoted (tail : List Char) : skipSpace ('\x22' :: tail) = '\x22' :: tail := skipSpace_cons rfl
  rw [writtenMember_append, memberName?, skipSpace_cons rfl]
  simp only [quoted, stringBody_written short]
  rfl

theorem membersFrom_member {isFirst : Bool} {s : List Char} {m : String × Json}
    {done : List (String × Json)}
    (named : memberName? limit isFirst s = .ok (some m.1, ':' :: (written m.2 ++ rest)))
    (read : ReadsBack R m.2) :
    membersFrom limit (keepMemberFrom R) (left + 1) isFirst done s =
      membersFrom limit (keepMemberFrom R) left false (done ++ [m]) rest := by
  have behind : colon (':' :: (written m.2 ++ rest)) = .ok ((), written m.2 ++ rest) := by
    simp only [colon, skipSpace_cons (c := ':') rfl]
  have kept : keepMemberFrom R done m.1 (':' :: (written m.2 ++ rest)) = .ok (done ++ [m], rest) :=
    (bind_of_ok behind).trans (bind_of_ok (read rest))
  simp only [membersFrom, named, kept]

theorem membersFrom_flatMap {members done : List (String × Json)}
    (short : ∀ m ∈ members, (writtenString m.1).length ≤ limit) (each : ∀ m ∈ members, ReadsBack R m.2)
    (enough : members.length < left) :
    membersFrom limit (keepMemberFrom R) left false done
        (members.flatMap (fun next => ',' :: writtenMember next) ++ '\x7d' :: rest) =
      .ok (done ++ members, rest) := by
  induction members generalizing left done with
  | nil =>
    obtain _ | left := left
    · cases enough
    · rw [List.append_nil]
      rfl
  | cons m members ih =>
    obtain _ | left := left
    · cases enough
    · obtain ⟨short, laterShort⟩ := List.forall_mem_cons.mp short
      obtain ⟨read, laterRead⟩ := List.forall_mem_cons.mp each
      rw [List.flatMap_cons, List.cons_append, List.cons_append, List.append_assoc,
        membersFrom_member (memberName?_later short) read,
        ih laterShort laterRead (Nat.lt_of_succ_lt_succ enough), List.append_assoc]
      rfl

theorem members_separated {members : List (String × Json)}
    (short : ∀ m ∈ members, (writtenString m.1).length ≤ limit) (each : ∀ m ∈ members, ReadsBack R m.2)
    (enough : members.length < limit) :
    Reader.members limit (keepMemberFrom R) []
        (separated writtenMember members ++ '\x7d' :: rest) = .ok (members, rest) := by
  obtain ⟨left, rfl⟩ : ∃ left, limit = left + 1 := Nat.exists_eq_succ_of_ne_zero (by omega)
  rw [Reader.members]
  cases members with
  | nil => rfl
  | cons m members =>
    obtain ⟨first, laterShort⟩ := List.forall_mem_cons.mp short
    obtain ⟨read, laterRead⟩ := List.forall_mem_cons.mp each
    rw [separated, List.append_assoc, membersFrom_member (memberName?_first first) read,
      membersFrom_flatMap laterShort laterRead (Nat.lt_of_succ_lt_succ enough)]
    rfl

theorem transcript_of_scalar {c : Char} {tail : List Char} (visible : isSpace c = false)
    (noList : c ≠ '[') (noObject : c ≠ '\x7b') (read : scalar limit (c :: tail) = .ok (j, rest)) :
    transcript limit depth (c :: tail) = .ok (j, rest) := by
  rw [transcript_scalar, skipSpace_cons visible]
  · exact read
  · rw [skipSpace_cons visible]
    rintro _ ⟨⟩
    exact noList rfl
  · rw [skipSpace_cons visible]
    rintro _ ⟨⟩
    exact noObject rfl

/-- What is written for a value is transcribed as the value, whatever stands behind it. -/
theorem transcript_written (plain : Plain depth j) (enough : (written j).length < limit) :
    ReadsBack (transcript limit depth) j := by
  -- The bound holds for the parts as well, since the text of a part is found in that of the whole.
  induction plain with
  | null => exact fun rest => transcript_of_scalar rfl (by decide) (by decide) rfl
  | bool b =>
    intro rest
    cases b <;> exact transcript_of_scalar rfl (by decide) (by decide) rfl
  | string t =>
    intro rest
    have begins : written (.string t) ++ rest =
        '\x22' :: (t.toList.flatMap escapedChar ++ '\x22' :: rest) := by
      simp [written, writtenString]
    have body : stringBody limit [] (t.toList.flatMap escapedChar ++ '\x22' :: rest) =
        .ok (t, rest) := by
      rw [written] at enough
      exact stringBody_written enough.le
    rw [begins]
    refine transcript_of_scalar rfl (by decide) (by decide) ?_
    simp only [scalar, body]
    rfl
  | @array depth items each ih =>
    intro rest
    have begins : written (.array items) ++ rest =
        '[' :: (separated written items ++ ']' :: rest) := by
      simp [written, writtenItems_eq]
    have shorter : (separated written items).length < limit := by
      rw [written, writtenItems_eq, List.length_append, List.length_cons] at enough
      omega
    have read : ∀ item ∈ items, ReadsBack (transcript limit depth) item := by
      intro item member
      have within := (sublist_separated (f := written) member).length_le
      exact ih item member (by omega)
    have count : items.length ≤ (separated written items).length :=
      length_le_separated fun item member => (each item member).written_ne_nil
    rw [begins, transcript_list (skipSpace_cons rfl), items_separated each read (by omega)]
    rfl
  | @object depth members each ih =>
    intro rest
    have begins : written (.object members) ++ rest =
        '\x7b' :: (separated writtenMember members ++ '\x7d' :: rest) := by
      simp [written, writtenMembers_eq]
    have shorter : (separated writtenMember members).length < limit := by
      rw [written, writtenMembers_eq, List.length_append, List.length_cons] at enough
      omega
    have within : ∀ m ∈ members,
        (writtenString m.1).length + (written m.2).length < limit := by
      intro m member
      have within := (sublist_separated (f := writtenMember) member).length_le
      rw [writtenMember, List.length_append, List.length_cons] at within
      omega
    have read : ∀ m ∈ members, ReadsBack (transcript limit depth) m.2 := by
      intro m member
      have within := within m member
      exact ih m member (by omega)
    have count : members.length ≤ (separated writtenMember members).length :=
      length_le_separated fun m _ => by simp [writtenMember]
    rw [begins, transcript_object (skipSpace_cons rfl),
      members_separated (fun m member => by have := within m member; omega) read (by omega)]
    rfl

end Values

/-- A text that is written for a value has the value as its transcript. -/
theorem transcribe_text {j : Json} (plain : Plain maxNesting j) : transcribe j.text = .ok j := by
  have read := transcript_written plain (Nat.lt_succ_self _) []
  rw [List.append_nil] at read
  rw [transcribe, wholeText, text, String.toList_ofList, read]
  rfl

end Sieve.Json
