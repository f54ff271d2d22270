import Sieve.Proofs.Sql.Token
import Sieve.Proofs.Text.Digits
import Sieve.Proofs.Tree.Walk

/-! What the text of a tree of conditions is made of: its tokens, its characters, and the numbers
of its places. -/
namespace Sieve.Sql

theorem placeholder_toList (n : Nat) : (placeholder n).toList = '$' :: decimalDigits n := by
  simp only [placeholder, String.toList_append, String.toList_ofList]
  rfl

theorem placeNumber?_placeholder (n : Nat) : placeNumber? (placeholder n).toList = some n := by
  have nonempty : (decimalDigits n).isEmpty = false :=
    List.isEmpty_eq_false_iff.mpr Nat.toDigits_ne_nil
  have digits : (decimalDigits n).all Char.isDigit = true :=
    List.all_eq_true.mpr fun _ member => isDigit_of_mem_decimalDigits member
  rw [placeholder_toList, placeNumber?, nonempty, digits, ofDigits_decimalDigits]
  rfl

theorem isWordChar_of_mem_placeholder {n : Nat} {c : Char} (member : c ∈ (placeholder n).toList) :
    isWordChar c = true := by
  rw [placeholder_toList] at member
  rcases List.mem_cons.mp member with rfl | digit
  · decide
  · have isDigit := isDigit_of_mem_decimalDigits digit
    simp only [isWordChar, isColumnChar, Char.isAlphanum, isDigit, Bool.or_true, Bool.true_or]

theorem placeNumber?_column {column : String} (sound : isColumn column = true) :
    placeNumber? column.toList = none := by
  cases chars : column.toList with
  | nil => rfl
  | cons c rest =>
    have first := isColumnChar_of_isColumn sound (chars ▸ List.mem_cons_self : c ∈ column.toList)
    unfold placeNumber?
    split
    next digits same =>
      cases same
      exact absurd first (by decide)
    next => rfl

section Scan

variable {α : Type} (meaning : List Char → List α)

theorem scan_column {column : String} (sound : isColumn column = true) :
    scan meaning column = meaning column.toList := by
  apply scan_word meaning (column_ne_nil sound)
  intro c member
  exact isWordChar_of_isColumn sound member

theorem scan_placeholder (n : Nat) :
    scan meaning (placeholder n) = meaning (placeholder n).toList := by
  apply scan_word meaning
  · simp [placeholder_toList]
  · exact fun _ member => isWordChar_of_mem_placeholder member

theorem scan_blank : scan meaning " " = meaning [' '] :=
  List.flatMap_singleton ..

theorem scan_opening : scan meaning "(" = meaning ['('] :=
  List.flatMap_singleton ..

theorem scan_closing : scan meaning ")" = meaning [')'] :=
  List.flatMap_singleton ..

theorem scan_test {column : String} (sound : isColumn column = true) (keyword : String) :
    scan meaning (column ++ " " ++ keyword) =
      meaning column.toList ++ meaning [' '] ++ scan meaning keyword := by
  rw [scan_between meaning column keyword (by decide) (by decide), scan_column meaning sound,
    scan_blank]

/-- A separator between delimiters is scanned apart from the parts that it joins. -/
theorem scan_joined (separator : String)
    (begun : separator.toList.head?.any isDelimiter = true)
    (ended : separator.toList.getLast?.any isDelimiter = true) : (parts : List String) →
      scan meaning (Text.joined separator parts) =
        (scan meaning separator).intercalate (parts.map (scan meaning))
  | [] => rfl
  | [part] => by simp [Text.joined]
  | part :: next :: others => by
    rw [Text.joined, scan_between meaning _ _ begun ended, scan_joined separator begun ended]
    simp only [List.map_cons, List.intercalate_cons_cons]

theorem scan_parenthesized (s : String) :
    scan meaning ("(" ++ s ++ ")") = meaning ['('] ++ scan meaning s ++ meaning [')'] := by
  rw [scan_append_right meaning _ (by decide), scan_append_left meaning _ (by decide),
    scan_opening, scan_closing]

theorem scan_text {c : Condition} (sound : isColumn c.column = true) :
    scan meaning c.text =
      meaning c.column.toList ++ meaning [' '] ++ scan meaning (keyword c.operator) ++
        match c.place with
        | none => []
        | some n =>
          if c.operator.takesList then meaning ['('] ++ meaning (placeholder n).toList ++ meaning [')']
          else meaning [' '] ++ meaning (placeholder n).toList := by
  unfold Condition.text
  cases c.place with
  | none => simp only [scan_test meaning sound, List.append_nil]
  | some n =>
    by_cases list : c.operator.takesList
    · simp only [list, if_true]
      rw [scan_append_right meaning _ (by decide), scan_between meaning _ _ (by decide) (by decide),
        scan_test meaning sound, scan_placeholder, scan_opening, scan_closing]
      simp only [List.append_assoc]
    · simp only [list, Bool.false_eq_true, if_false]
      rw [scan_between meaning _ _ (by decide) (by decide), scan_test meaning sound,
        scan_placeholder, scan_blank]
      simp only [List.append_assoc]

end Scan

def separator (c : Connective) : String :=
  " " ++ c.keyword ++ " "

theorem scan_separated {α : Type} (meaning : List Char → List α) (c : Connective)
    (parts : List String) :
    scan meaning (Text.joined (separator c) parts) =
      (scan meaning (separator c)).intercalate (parts.map (scan meaning)) := by
  apply scan_joined
  · cases c <;> decide
  · cases c <;> decide

theorem tokens_separator (c : Connective) : tokens (separator c) = [.word c.keyword] := by
  cases c <;> decide +kernel

theorem tokens_keyword (op : Operator) :
    tokens (keyword op) =
      match op with
      | .eq => [.word "="]
      | .neq => [.word "!="]
      | .gt => [.word ">"]
      | .gte => [.word ">="]
      | .lt => [.word "<"]
      | .lte => [.word "<="]
      | .isIn => [.word "=", .word "ANY"]
      | .notIn => [.word "!=", .word "ALL"]
      | .like => [.word "LIKE"]
      | .ilike | .contains => [.word "ILIKE"]
      | .isNull => [.word "IS", .word "NULL"]
      | .isNotNull => [.word "IS", .word "NOT", .word "NULL"] := by
  cases op <;> decide +kernel

namespace Condition

def IsWellFormed (c : Condition) : Prop :=
  isColumn c.column = true ∧ c.place.isSome = c.operator.takesValue

def raise (amount : Nat) (c : Condition) : Condition :=
  { c with place := c.place.map (· + amount) }

def placeTokens (c : Condition) : List Token :=
  match c.place with
  | none => []
  | some n => if c.operator.takesList then [.opening, .place n, .closing] else [.place n]

def tokens (c : Condition) : List Token :=
  .word c.column :: Sql.tokens (keyword c.operator) ++ c.placeTokens

theorem text_ne_empty (c : Condition) : c.text ≠ "" := by
  intro empty
  have chars := congrArg String.toList empty
  unfold text at chars
  split at chars
  · simp at chars
  · split at chars <;> simp at chars

theorem ofLexeme_column {column : String} (sound : isColumn column = true) :
    Token.ofLexeme column.toList = [.word column] := by
  have notDelimiter : ∀ d, isColumnChar d = false → column.toList ≠ [d] := by
    intro d outside same
    have inside := isColumnChar_of_isColumn sound (same ▸ List.mem_cons_self : d ∈ column.toList)
    rw [outside] at inside
    cases inside
  rw [Token.ofLexeme, placeNumber?_column sound]
  simp only [notDelimiter ' ' (by decide), notDelimiter '(' (by decide),
    notDelimiter ')' (by decide), if_false, String.ofList_toList]

theorem ofLexeme_placeholder (n : Nat) :
    Token.ofLexeme (placeholder n).toList = [.place n] := by
  rw [Token.ofLexeme, placeNumber?_placeholder]

theorem tokens_text {c : Condition} (sound : isColumn c.column = true) :
    Sql.tokens c.text = c.tokens := by
  rw [Sql.tokens, scan_text _ sound, ofLexeme_column sound, tokens, placeTokens]
  cases c.place with
  | none => rfl
  | some n =>
    simp only [ofLexeme_placeholder]
    split <;> rfl

theorem raisedLexeme_placeholder (amount n : Nat) :
    raisedLexeme amount (placeholder n).toList = (placeholder (n + amount)).toList := by
  rw [raisedLexeme, placeNumber?_placeholder]

theorem raisedLexeme_column (amount : Nat) {column : String} (sound : isColumn column = true) :
    raisedLexeme amount column.toList = column.toList := by
  rw [raisedLexeme, placeNumber?_column sound]

theorem scan_raisedLexeme_keyword (amount : Nat) (op : Operator) :
    scan (raisedLexeme amount) (keyword op) = (keyword op).toList := by
  cases op <;> rfl

theorem raised_text (amount : Nat) {c : Condition} (sound : isColumn c.column = true) :
    scan (raisedLexeme amount) c.text = (c.raise amount).text.toList := by
  rw [scan_text _ sound, raisedLexeme_column amount sound, scan_raisedLexeme_keyword, text, raise]
  cases c.place with
  | none => simp only [Option.map_none, String.toList_append, List.append_nil]; rfl
  | some n =>
    simp only [raisedLexeme_placeholder, Option.map_some]
    split <;> simp only [String.toList_append, ← List.append_assoc] <;> rfl

end Condition

theorem joined_eq_empty {separator : String} : {parts : List String} →
    (∀ part ∈ parts, part ≠ "") → (Text.joined separator parts = "" ↔ parts = [])
  | [], _ => by simp [Text.joined]
  | [part], nonempty => by simp [Text.joined, nonempty part]
  | part :: next :: others, nonempty => by
    have first := nonempty part List.mem_cons_self
    simp [Text.joined, String.append_eq_empty_iff, first]

theorem nestedTexts_ne_empty (gs : List (Tree Condition)) :
    ∀ part ∈ nestedTexts gs, part ≠ "" := by
  induction gs with
  | nil => simp [nestedTexts]
  | cons g gs ih =>
    rw [nestedTexts]
    split
    · exact ih
    · intro part member
      rcases List.mem_cons.mp member with rfl | later
      · simp [String.append_eq_empty_iff]
      · exact ih part later

mutual

/-- The text is empty where the tree has no leaf, and only there. -/
theorem textOf_eq_empty : (t : Tree Condition) → (textOf t = "" ↔ t.isEmpty = true)
  | .group c conditions groups => by
    have parts : ∀ part ∈ conditions.map Condition.text ++ nestedTexts groups, part ≠ "" := by
      intro part member
      rcases List.mem_append.mp member with own | nested
      · obtain ⟨condition, _, rfl⟩ := List.mem_map.mp own
        exact condition.text_ne_empty
      · exact nestedTexts_ne_empty groups part nested
    rw [textOf, joined_eq_empty parts, List.append_eq_nil_iff, List.map_eq_nil_iff,
      nestedTexts_eq_nil groups, Tree.isEmpty, Bool.and_eq_true, List.isEmpty_iff]

theorem nestedTexts_eq_nil :
    (gs : List (Tree Condition)) → (nestedTexts gs = [] ↔ Tree.areEmpty gs = true)
  | [] => by simp [nestedTexts, Tree.areEmpty]
  | g :: gs => by
    have first := textOf_eq_empty g
    have rest := nestedTexts_eq_nil gs
    rw [nestedTexts, Tree.areEmpty, Bool.and_eq_true]
    by_cases empty : g.isEmpty
    · simp [first.mpr empty, rest, empty]
    · have text := mt first.mp empty
      simp [String.isEmpty_iff, text, empty]

end

theorem nestedTexts_cons (g : Tree Condition) (gs : List (Tree Condition)) :
    nestedTexts (g :: gs) =
      if g.isEmpty then nestedTexts gs else ("(" ++ textOf g ++ ")") :: nestedTexts gs := by
  have empty : (textOf g).isEmpty = g.isEmpty := by
    rw [Bool.eq_iff_iff, String.isEmpty_iff, textOf_eq_empty]
  rw [nestedTexts, ← empty]

mutual

def tokensOf : Tree Condition → List Token
  | .group c conditions groups =>
    [Token.word c.keyword].intercalate (conditions.map Condition.tokens ++ nestedTokens groups)

def nestedTokens : List (Tree Condition) → List (List Token)
  | [] => []
  | g :: gs =>
    if g.isEmpty then nestedTokens gs
    else ([.opening] ++ tokensOf g ++ [.closing]) :: nestedTokens gs

end

def SoundColumns (conditions : List Condition) : Prop :=
  ∀ c ∈ conditions, isColumn c.column = true

mutual

theorem tokens_textOf :
    (t : Tree Condition) → SoundColumns t.leaves → tokens (textOf t) = tokensOf t
  | .group c conditions groups, sound => by
    obtain ⟨ownSound, nestedSound⟩ := Tree.forall_leaves_group.mp sound
    have own : (conditions.map Condition.text).map tokens = conditions.map Condition.tokens := by
      rw [List.map_map]
      apply List.map_congr_left
      intro condition member
      exact Condition.tokens_text (ownSound condition member)
    have nested := tokens_nestedTexts groups nestedSound
    rw [textOf, tokensOf, ← own, ← nested, ← List.map_append, ← tokens_separator]
    exact scan_separated Token.ofLexeme c _

theorem tokens_nestedTexts :
    (gs : List (Tree Condition)) → SoundColumns (Tree.leavesOfAll gs) →
      (nestedTexts gs).map tokens = nestedTokens gs
  | [], _ => rfl
  | g :: gs, sound => by
    obtain ⟨firstSound, restSound⟩ := Tree.forall_leavesOfAll_cons.mp sound
    have first := tokens_textOf g firstSound
    have rest := tokens_nestedTexts gs restSound
    rw [nestedTexts_cons, nestedTokens]
    split
    · exact rest
    · rw [List.map_cons, rest, tokens, scan_parenthesized, ← first]
      rfl

end

theorem scan_raisedLexeme_separator (amount : Nat) (c : Connective) :
    scan (raisedLexeme amount) (separator c) = (separator c).toList := by
  cases c <;> rfl

theorem toList_joined (separator : String) : (parts : List String) →
    (Text.joined separator parts).toList =
      separator.toList.intercalate (parts.map String.toList)
  | [] => rfl
  | [part] => by simp [Text.joined]
  | part :: next :: others => by
    rw [Text.joined, String.toList_append, String.toList_append, toList_joined]
    simp only [List.map_cons, List.intercalate_cons_cons]

mutual

/-- The numbers in the text of a tree are the numbers in the tree. -/
theorem raised_textOf (amount : Nat) :
    (t : Tree Condition) → SoundColumns t.leaves →
      scan (raisedLexeme amount) (textOf t) = (textOf (t.map (Condition.raise amount))).toList
  | .group c conditions groups, sound => by
    obtain ⟨ownSound, nestedSound⟩ := Tree.forall_leaves_group.mp sound
    have own : (conditions.map Condition.text).map (scan (raisedLexeme amount)) =
        ((conditions.map (Condition.raise amount)).map Condition.text).map String.toList := by
      simp only [List.map_map]
      apply List.map_congr_left
      intro condition member
      exact Condition.raised_text amount (ownSound condition member)
    have nested := raised_nestedTexts amount groups nestedSound
    have parts := scan_separated (raisedLexeme amount) c
      (conditions.map Condition.text ++ nestedTexts groups)
    calc
      scan (raisedLexeme amount) (textOf (.group c conditions groups))
        = (separator c).toList.intercalate
            ((conditions.map Condition.text ++ nestedTexts groups).map
              (scan (raisedLexeme amount))) := by
          rw [scan_raisedLexeme_separator] at parts
          exact parts
      _ = (separator c).toList.intercalate
            (((conditions.map (Condition.raise amount)).map Condition.text ++
              nestedTexts (Tree.mapAll (Condition.raise amount) groups)).map String.toList) := by
          rw [List.map_append, own, nested, ← List.map_append]
      _ = (textOf ((Tree.group c conditions groups).map (Condition.raise amount))).toList := by
          rw [← toList_joined]
          rfl

theorem raised_nestedTexts (amount : Nat) :
    (gs : List (Tree Condition)) → SoundColumns (Tree.leavesOfAll gs) →
      (nestedTexts gs).map (scan (raisedLexeme amount)) =
        (nestedTexts (Tree.mapAll (Condition.raise amount) gs)).map String.toList
  | [], _ => rfl
  | g :: gs, sound => by
    obtain ⟨firstSound, restSound⟩ := Tree.forall_leavesOfAll_cons.mp sound
    have first := raised_textOf amount g firstSound
    have rest := raised_nestedTexts amount gs restSound
    have empty : (g.map (Condition.raise amount)).isEmpty = g.isEmpty := by
      rw [Bool.eq_iff_iff, Tree.isEmpty_iff, Tree.isEmpty_iff, Tree.leaves_map, List.map_eq_nil_iff]
    rw [Tree.mapAll, nestedTexts_cons, nestedTexts_cons, empty]
    split
    · exact rest
    · rw [List.map_cons, List.map_cons, rest, scan_parenthesized, first, String.toList_append,
        String.toList_append]
      rfl

end

end Sieve.Sql
