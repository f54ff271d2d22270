import Mathlib.Data.List.Forall2
import Sieve.Matching

/-! Which texts a pattern matches: those that can be cut into runs of characters, one for each place
of the pattern. The marks that are moved past one place after another tell which beginnings of the
text the places can take. -/
namespace Sieve.Pattern

def Token.Takes : Token → List Char → Prop
  | .literal c, run => run = [c]
  | .anyOne, run => ∃ c, run = [c]
  | .anyMany, _ => True

/-- Whether a text can be cut into consecutive runs, one for each place in order. -/
def Cuts (places : List Token) (text : List Char) : Prop :=
  ∃ runs, List.Forall₂ Token.Takes places runs ∧ runs.flatten = text

inductive Written : List Char → List Token → Prop
  | nil : Written [] []
  | escaped {rest : List Char} {places : List Token} (c : Char) (others : Written rest places) :
      Written ('\\' :: c :: rest) (.literal c :: places)
  | lastBackslash : Written ['\\'] [.literal '\\']
  | anyMany {rest : List Char} {places : List Token} (others : Written rest places) :
      Written ('%' :: rest) (.anyMany :: places)
  | anyOne {rest : List Char} {places : List Token} (others : Written rest places) :
      Written ('_' :: rest) (.anyOne :: places)
  | plain {c : Char} {rest : List Char} {places : List Token} (own : isSpecial c = false)
      (others : Written rest places) : Written (c :: rest) (.literal c :: places)

variable {place : Token} {places others : List Token} {pattern text : List Char}

theorem isSpecial_eq_false_iff {c : Char} :
    isSpecial c = false ↔ c ≠ '\\' ∧ c ≠ '%' ∧ c ≠ '_' := by
  simp [isSpecial, and_assoc]

theorem tokens_plain {c : Char} (own : isSpecial c = false) (rest : List Char) :
    tokens (c :: rest) = .literal c :: tokens rest := by
  obtain ⟨noBackslash, noPercent, noUnderscore⟩ := isSpecial_eq_false_iff.mp own
  rw [tokens]
  · simp [noPercent, noUnderscore]
  · rintro _ _ rfl
    exact absurd rfl noBackslash

theorem written_tokens (pattern : List Char) : Written pattern (tokens pattern) := by
  fun_induction tokens pattern with
  | case1 => exact .nil
  | case2 c rest ih => exact .escaped c ih
  | case3 c rest notEscape ih =>
    split
    next percent =>
      subst percent
      exact .anyMany ih
    next noPercent =>
      split
      next underscore =>
        subst underscore
        exact .anyOne ih
      next noUnderscore =>
        by_cases backslash : c = '\\'
        · subst backslash
          cases rest with
          | nil => exact .lastBackslash
          | cons d rest => exact absurd rfl (notEscape d rest rfl)
        · exact .plain (isSpecial_eq_false_iff.mpr ⟨backslash, noPercent, noUnderscore⟩) ih

/-- A pattern is written for one list of places. -/
theorem written_iff : Written pattern places ↔ places = tokens pattern := by
  constructor
  · intro written
    induction written with
    | nil => rfl
    | escaped c _ ih => rw [ih, tokens]
    | lastBackslash => rfl
    | anyMany _ ih => rw [ih]; rfl
    | anyOne _ ih => rw [ih]; rfl
    | plain own _ ih => rw [tokens_plain own, ih]
  · rintro rfl
    exact written_tokens pattern

theorem cuts_nil_iff : Cuts [] text ↔ text = [] := by
  constructor
  · rintro ⟨_, ⟨⟩, rfl⟩
    rfl
  · rintro rfl
    exact ⟨[], .nil, rfl⟩

theorem cuts_cons_iff : Cuts (place :: places) text ↔
    ∃ run rest, text = run ++ rest ∧ place.Takes run ∧ Cuts places rest := by
  constructor
  · rintro ⟨_, each, rfl⟩
    cases each with
    | cons first later => exact ⟨_, _, rfl, first, _, later, rfl⟩
  · rintro ⟨run, _, rfl, first, runs, later, rfl⟩
    exact ⟨run :: runs, .cons first later, rfl⟩

theorem cuts_append_iff : Cuts (places ++ others) text ↔
    ∃ front back, text = front ++ back ∧ Cuts places front ∧ Cuts others back := by
  induction places generalizing text with
  | nil => simp [cuts_nil_iff]
  | cons place places ih =>
    rw [List.cons_append, cuts_cons_iff]
    constructor
    · rintro ⟨run, _, rfl, takes, cut⟩
      obtain ⟨front, back, rfl, first, later⟩ := ih.mp cut
      exact ⟨run ++ front, back, (List.append_assoc run front back).symm,
        cuts_cons_iff.mpr ⟨run, front, rfl, takes, first⟩, later⟩
    · rintro ⟨_, back, rfl, first, later⟩
      obtain ⟨run, front, rfl, takes, cut⟩ := cuts_cons_iff.mp first
      exact ⟨run, front ++ back, List.append_assoc run front back, takes,
        ih.mpr ⟨front, back, rfl, cut, later⟩⟩

theorem cuts_singleton_iff : Cuts [place] text ↔ place.Takes text := by
  simp [cuts_cons_iff, cuts_nil_iff]

/-- What stands before a position is cut at an earlier one, or at the same. -/
theorem cuts_take_concat_iff {j : Nat} : Cuts (places ++ [place]) (text.take j) ↔
    ∃ i ≤ j, Cuts places (text.take i) ∧ place.Takes ((text.take j).drop i) := by
  rw [cuts_append_iff]
  constructor
  · rintro ⟨front, back, whole, first, last⟩
    have within : front.length ≤ j := by
      have := congrArg List.length whole
      simp only [List.length_take, List.length_append] at this
      omega
    refine ⟨front.length, within, ?_, ?_⟩
    · have kept : text.take front.length = front := by
        rw [← Nat.min_eq_left within, ← List.take_take, whole, List.take_left]
      rwa [kept]
    · rw [whole, List.drop_left]
      exact cuts_singleton_iff.mp last
  · rintro ⟨i, within, first, last⟩
    refine ⟨text.take i, (text.take j).drop i, ?_, first, cuts_singleton_iff.mpr last⟩
    rw [← Nat.min_eq_left within, ← List.take_take, Nat.min_eq_left within, List.take_append_drop]

theorem drop_take_eq_singleton_iff {i j : Nat} {c : Char} (within : j ≤ text.length) :
    (text.take j).drop i = [c] ↔ j = i + 1 ∧ text[i]? = some c := by
  constructor
  · intro single
    have length := congrArg List.length single
    simp only [List.length_drop, List.length_take, List.length_singleton] at length
    have next : j = i + 1 := by omega
    subst next
    refine ⟨rfl, ?_⟩
    have first := congrArg (·[0]?) single
    simpa [List.getElem?_drop, List.getElem?_take] using first
  · rintro ⟨rfl, found⟩
    obtain ⟨inside, rfl⟩ := List.getElem?_eq_some_iff.mp found
    rw [List.take_succ_eq_append_getElem inside, List.drop_append, List.length_take,
      Nat.min_eq_left (Nat.le_of_lt inside)]
    simp

/-- Marks at the positions of a text up to which it is taken by the places. -/
structure Reached (places : List Token) (text : List Char) (marks : List Bool) : Prop where
  length : marks.length = text.length + 1
  marked : ∀ j, marks[j]? = some true ↔ j ≤ text.length ∧ Cuts places (text.take j)

theorem length_fromMarked (seen : Bool) (marks : List Bool) :
    (fromMarked seen marks).length = marks.length := by
  induction marks generalizing seen with
  | nil => rfl
  | cons mark rest ih => rw [fromMarked, List.length_cons, ih, List.length_cons]

theorem getElem?_fromMarked {seen : Bool} {marks : List Bool} {j : Nat} :
    (fromMarked seen marks)[j]? = some true ↔
      j < marks.length ∧ (seen = true ∨ ∃ i ≤ j, marks[i]? = some true) := by
  induction marks generalizing seen j with
  | nil => simp [fromMarked]
  | cons mark rest ih =>
    cases j with
    | zero => simp [fromMarked]
    | succ j =>
      rw [fromMarked, List.getElem?_cons_succ, ih, List.length_cons, Nat.add_lt_add_iff_right,
        Bool.or_eq_true, or_assoc]
      apply and_congr_right'
      apply or_congr_right
      constructor
      · rintro (first | ⟨i, within, found⟩)
        · exact ⟨0, Nat.zero_le _, by simp [first]⟩
        · exact ⟨i + 1, Nat.succ_le_succ within, by simpa using found⟩
      · rintro ⟨i, within, found⟩
        cases i with
        | zero => exact .inl (by simpa using found)
        | succ i => exact .inr ⟨i, Nat.le_of_succ_le_succ within, by simpa using found⟩

namespace Reached

variable {marks : List Bool}

theorem start (text : List Char) : Reached [] text (startMarks text) where
  length := by simp [startMarks]
  marked j := by
    cases j with
    | zero => simp [startMarks, cuts_nil_iff]
    | succ j =>
      simp only [startMarks, List.getElem?_cons_succ, cuts_nil_iff, List.take_eq_nil_iff]
      constructor
      · intro marked
        simp [List.getElem?_replicate] at marked
      · rintro ⟨within, empty⟩
        rcases empty with never | rfl
        · cases never
        · cases within

theorem anyMany (reached : Reached places text marks) :
    Reached (places ++ [.anyMany]) text (advance text marks .anyMany) where
  length := by rw [advance, length_fromMarked, reached.length]
  marked j := by
    simp only [advance, getElem?_fromMarked, cuts_take_concat_iff, reached.length, reached.marked,
      Token.Takes, and_true, Bool.false_eq_true, false_or, Nat.lt_succ_iff]
    apply and_congr_right
    intro within
    constructor
    · rintro ⟨i, before, _, cut⟩
      exact ⟨i, before, cut⟩
    · rintro ⟨i, before, cut⟩
      exact ⟨i, before, Nat.le_trans before within, cut⟩

theorem anyOne (reached : Reached places text marks) :
    Reached (places ++ [.anyOne]) text (advance text marks .anyOne) where
  length := by
    rw [advance, List.length_cons, List.length_take, reached.length]
    omega
  marked j := by
    rw [cuts_take_concat_iff]
    cases j with
    | zero => simp [advance, Token.Takes]
    | succ j =>
      have kept : (marks.take text.length)[j]? = some true ↔
          j < text.length ∧ marks[j]? = some true := by
        rw [List.getElem?_take]
        split <;> simp [*]
      rw [advance, List.getElem?_cons_succ, kept, reached.marked]
      constructor
      · rintro ⟨inside, within, cut⟩
        have single := (drop_take_eq_singleton_iff (i := j) inside).mpr
          ⟨rfl, List.getElem?_eq_getElem inside⟩
        exact ⟨inside, j, Nat.le_succ j, cut, _, single⟩
      · rintro ⟨inside, i, _, cut, c, single⟩
        obtain ⟨next, _⟩ := (drop_take_eq_singleton_iff inside).mp single
        cases next
        exact ⟨inside, Nat.le_of_succ_le inside, cut⟩

theorem literal (reached : Reached places text marks) (c : Char) :
    Reached (places ++ [.literal c]) text (advance text marks (.literal c)) where
  length := by
    rw [advance, List.length_cons, List.length_zipWith, reached.length]
    omega
  marked j := by
    rw [cuts_take_concat_iff]
    cases j with
    | zero => simp [advance, Token.Takes]
    | succ j =>
      have both : (List.zipWith (fun mark d => mark && d == c) marks text)[j]? = some true ↔
          marks[j]? = some true ∧ text[j]? = some c := by
        rw [List.getElem?_zipWith]
        cases marks[j]? <;> cases text[j]? <;> simp
      rw [advance, List.getElem?_cons_succ, both, reached.marked]
      constructor
      · rintro ⟨⟨within, cut⟩, found⟩
        obtain ⟨inside, _⟩ := List.getElem?_eq_some_iff.mp found
        exact ⟨inside, j, Nat.le_succ j, cut, (drop_take_eq_singleton_iff inside).mpr ⟨rfl, found⟩⟩
      · rintro ⟨inside, i, _, cut, single⟩
        obtain ⟨next, found⟩ := (drop_take_eq_singleton_iff inside).mp single
        cases next
        exact ⟨⟨Nat.le_of_succ_le inside, cut⟩, found⟩

theorem advance (reached : Reached places text marks) (place : Token) :
    Reached (places ++ [place]) text (Pattern.advance text marks place) := by
  cases place with
  | anyMany => exact reached.anyMany
  | anyOne => exact reached.anyOne
  | literal c => exact reached.literal c

theorem foldl (reached : Reached places text marks) (others : List Token) :
    Reached (places ++ others) text (others.foldl (Pattern.advance text) marks) := by
  induction others generalizing places marks with
  | nil => rwa [List.append_nil]
  | cons place others ih =>
    have next := ih (reached.advance place)
    rwa [List.append_assoc, List.singleton_append] at next

theorem getLast?_eq (reached : Reached places text marks) :
    marks.getLast?.getD false = true ↔ Cuts places text := by
  have last := reached.marked text.length
  rw [List.take_length, and_iff_right (Nat.le_refl _)] at last
  rw [← last, List.getLast?_eq_getElem?, reached.length, Nat.add_sub_cancel]
  cases marks[text.length]? <;> simp

end Reached

theorem accepts_eq_true_iff : accepts places text = true ↔ Cuts places text :=
  ((Reached.start text).foldl places).getLast?_eq

theorem matchesText_eq_true_iff : matchesText pattern text = true ↔ Cuts (tokens pattern) text :=
  accepts_eq_true_iff

theorem exists_written_iff : (∃ places, Written pattern places ∧ Cuts places text) ↔
    matchesText pattern text = true := by
  simp [written_iff, matchesText_eq_true_iff]

/-- A pattern matches a text that can be cut into runs for its places, and no other; and so does the
operator that tests a text in a record against a pattern. -/
theorem like_iff_cut :
    (∀ pattern text, matchesText pattern text = true ↔
      ∃ places, Written pattern places ∧ Cuts places text) ∧
    ∀ (f : TypedFilter) (record : Record) (pattern text : String),
      f.operator = .like → f.value = some (.text pattern) →
        Json.member? record f.field = some (.string text) →
          (f.accepts record = true ↔
            ∃ places, Written pattern.toList places ∧ Cuts places text.toList) := by
  constructor
  · intro pattern text
    exact exists_written_iff.symm
  · intro f record pattern text like given found
    have decides := TypedFilter.accepts_eq_satisfies (by rw [like]; rfl)
      (Matching.fieldValue?_eq found rfl) given
    rw [decides, like]
    exact exists_written_iff.symm

/-- A percent sign that stands for itself, a backslash that ends the pattern, and a place for one
character that the second text does not fill. -/
theorem like_iff_cut_escapes :
    let f : TypedFilter := ⟨"title", "title", .like, some (.text "%\\%_w\\")⟩
    let places : List Token := [.anyMany, .literal '%', .anyOne, .literal 'w', .literal '\\']
    let filled : Record := [("title", .string "100% w\\")]
    let short : Record := [("title", .string "100%w\\")]
    Written "%\\%_w\\".toList places ∧
      (f.accepts filled = true ∧ Cuts places "100% w\\".toList) ∧
      f.accepts short = false ∧ ¬Cuts places "100%w\\".toList := by
  intro f places filled short
  have written : Written "%\\%_w\\".toList places := written_iff.mpr rfl
  have accepted : f.accepts filled = true := by decide +kernel
  have refused : f.accepts short = false := by decide +kernel
  obtain ⟨_, same, cut⟩ := (like_iff_cut.2 f filled _ _ rfl rfl rfl).mp accepted
  rw [written_iff.mp same, ← written_iff.mp written] at cut
  have uncut : ¬Cuts places "100%w\\".toList := by
    intro shortCut
    have accepts := (like_iff_cut.2 f short _ _ rfl rfl rfl).mpr ⟨places, written, shortCut⟩
    rw [refused] at accepts
    cases accepts
  exact ⟨written, ⟨accepted, cut⟩, refused, uncut⟩

end Sieve.Pattern
