import Sieve.Proofs.Pattern.Cuts
import Sieve.Proofs.Text.Lowercase
import Sieve.Sql.Fragment

/-! Texts written as patterns for themselves. An escaped text is matched by that text alone, and the
pattern of a substring test by the texts in which it occurs. Escaping and lower case can be exchanged:
no character with a meaning in patterns has another lower case, none is the lower case of another
character, and next to a sigma they are no different from an end of the text. -/
namespace Sieve.Pattern

variable {s t pattern text before before' after after' : List Char} {c d : Char}

theorem isSpecial_cases (special : isSpecial c = true) : c = '\\' ∨ c = '%' ∨ c = '_' := by
  simpa [isSpecial, or_assoc] using special

theorem escape_special (special : isSpecial c = true) (s : List Char) :
    escape (c :: s) = '\\' :: c :: escape s := by
  rw [escape, if_pos special]

theorem escape_plain (own : isSpecial c = false) (s : List Char) :
    escape (c :: s) = c :: escape s := by
  rw [escape, if_neg (by simp [own])]

theorem escape_append_of_plain (own : ∀ c ∈ s, isSpecial c = false) (t : List Char) :
    escape (s ++ t) = s ++ escape t := by
  induction s with
  | nil => rfl
  | cons c s ih =>
    obtain ⟨first, others⟩ := List.forall_mem_cons.mp own
    rw [List.cons_append, escape_plain first, ih others, List.cons_append]

theorem tokens_append_of_plain (own : ∀ c ∈ s, isSpecial c = false) (rest : List Char) :
    tokens (s ++ rest) = s.map .literal ++ tokens rest := by
  induction s with
  | nil => rfl
  | cons c s ih =>
    obtain ⟨first, others⟩ := List.forall_mem_cons.mp own
    rw [List.cons_append, tokens_plain first, ih others, List.map_cons, List.cons_append]

theorem tokens_escape_append (s rest : List Char) :
    tokens (escape s ++ rest) = s.map .literal ++ tokens rest := by
  induction s with
  | nil => rfl
  | cons c s ih =>
    cases kind : isSpecial c with
    | true =>
      rw [escape_special kind, List.cons_append, List.cons_append, tokens, ih, List.map_cons,
        List.cons_append]
    | false => rw [escape_plain kind, List.cons_append, tokens_plain kind, ih, List.map_cons,
        List.cons_append]

theorem tokens_escape (s : List Char) : tokens (escape s) = s.map .literal := by
  have whole := tokens_escape_append s []
  rwa [List.append_nil, tokens, List.append_nil] at whole

theorem tokens_containing (s : List Char) :
    tokens (containing s) = .anyMany :: (s.map .literal ++ [.anyMany]) := by
  have percent : tokens ['%'] = [.anyMany] := rfl
  rw [containing, List.cons_append, tokens, tokens_escape_append, percent]
  · rfl
  · exact fun _ _ backslash => absurd backslash (by decide)

theorem cuts_literals_iff : Cuts (s.map .literal) text ↔ s = text := by
  induction s generalizing text with
  | nil => rw [List.map_nil, cuts_nil_iff, eq_comm]
  | cons c s ih =>
    rw [List.map_cons, cuts_cons_iff]
    constructor
    · rintro ⟨_, rest, rfl, rfl, cut⟩
      rw [ih.mp cut, List.singleton_append]
    · rintro rfl
      exact ⟨[c], s, rfl, rfl, ih.mpr rfl⟩

theorem cuts_anyMany_cons_iff {places : List Token} : Cuts (.anyMany :: places) text ↔
    ∃ run rest, text = run ++ rest ∧ Cuts places rest := by
  simp [cuts_cons_iff, Token.Takes]

theorem matchesText_escape : matchesText (escape s) text = true ↔ s = text := by
  rw [matchesText_eq_true_iff, tokens_escape, cuts_literals_iff]

theorem matchesText_containing : matchesText (containing s) text = true ↔ s <:+: text := by
  rw [matchesText_eq_true_iff, tokens_containing, cuts_anyMany_cons_iff]
  constructor
  · rintro ⟨front, _, rfl, cut⟩
    obtain ⟨found, back, rfl, literals, _⟩ := cuts_append_iff.mp cut
    rw [← cuts_literals_iff.mp literals]
    exact ⟨front, back, List.append_assoc front s back⟩
  · rintro ⟨front, back, rfl⟩
    refine ⟨front, s ++ back, List.append_assoc front s back, ?_⟩
    exact cuts_append_iff.mpr ⟨s, back, rfl, cuts_literals_iff.mpr rfl,
      cuts_singleton_iff.mpr trivial⟩

theorem occursIn_eq_true_iff : occursIn s text = true ↔ s <:+: text := by
  induction text with
  | nil => simp [occursIn]
  | cons c rest ih =>
    rw [occursIn, Bool.or_eq_true, List.isPrefixOf_iff_prefix, ih, List.infix_cons_iff]

theorem lowerIn_special (special : isSpecial c = true) (before after : List Char) :
    Text.lowerIn before c after = [c] := by
  have alone : c ≠ Text.capitalSigma ∧ Text.lowerChar c = [c] := by
    rcases isSpecial_cases special with rfl | rfl | rfl <;> decide +kernel
  rw [Text.lowerIn, if_neg alone.1, alone.2]

theorem isSpecial_of_mem_lowerIn (own : isSpecial c = false) :
    ∀ d ∈ Text.lowerIn before c after, isSpecial d = false := by
  intro d member
  rcases Text.lowerIn_bounds member with rfl | least
  · exact own
  · rw [isSpecial_eq_false_iff]
    refine ⟨?_, ?_, ?_⟩ <;> rintro rfl <;> revert least <;> decide

theorem meetsCased_special (special : isSpecial c = true) (s : List Char) :
    Text.meetsCased (c :: s) = false := by
  have ends : Text.isCaseIgnorable c = false ∧ Text.isCased c = false := by
    rcases isSpecial_cases special with rfl | rfl | rfl <;> decide +kernel
  rw [Text.meetsCased_cons, ends.1, if_neg Bool.false_ne_true, ends.2]

theorem meetsCased_escape_append (same : Text.meetsCased after' = Text.meetsCased after)
    (s : List Char) : Text.meetsCased (escape s ++ after') = Text.meetsCased (s ++ after) := by
  induction s with
  | nil => exact same
  | cons c s ih =>
    cases kind : isSpecial c with
    | true =>
      have backslash : isSpecial '\\' = true := rfl
      rw [escape_special kind, List.cons_append, meetsCased_special backslash, List.cons_append,
        meetsCased_special kind]
    | false =>
      rw [escape_plain kind, List.cons_append, List.cons_append, Text.meetsCased_cons, ih,
        Text.meetsCased_cons]

/-- Lower case depends on the surroundings only by what a sigma meets on either side. -/
theorem lowerIn_congr (sameBefore : Text.meetsCased before' = Text.meetsCased before)
    (sameAfter : Text.meetsCased after' = Text.meetsCased after) (c : Char) :
    Text.lowerIn before' c after' = Text.lowerIn before c after := by
  rw [Text.lowerIn, Text.lowerIn, Text.lowerSigma, Text.lowerSigma, sameBefore, sameAfter]

theorem lowerBetween_escape (sameBefore : Text.meetsCased before' = Text.meetsCased before)
    (sameAfter : Text.meetsCased after' = Text.meetsCased after) :
    Text.lowerBetween before' (escape s) after' = escape (Text.lowerBetween before s after) := by
  induction s generalizing before before' with
  | nil => rfl
  | cons c s ih =>
    cases kind : isSpecial c with
    | true =>
      -- Whatever precedes, a word begins anew behind this character.
      have next := @ih (c :: before) (c :: '\\' :: before') (by
        rw [meetsCased_special kind, meetsCased_special kind])
      have backslash : isSpecial '\\' = true := rfl
      simp only [escape_special kind, Text.lowerBetween, lowerIn_special kind,
        lowerIn_special backslash, List.singleton_append, next]
    | false =>
      have next := @ih (c :: before) (c :: before') (by
        rw [Text.meetsCased_cons, Text.meetsCased_cons, sameBefore])
      have here := lowerIn_congr sameBefore (meetsCased_escape_append sameAfter s) c
      rw [escape_plain kind, Text.lowerBetween, Text.lowerBetween, here, next,
        escape_append_of_plain (isSpecial_of_mem_lowerIn kind)]

theorem lower_containing (s : List Char) : Text.lower (containing s) = containing (Text.lower s) := by
  have percent : isSpecial '%' = true := rfl
  have none : Text.meetsCased [] = false := rfl
  have inside : Text.lowerBetween ['%'] (escape s) ['%'] = escape (Text.lower s) := by
    rw [Text.lower_eq_lowerBetween]
    exact lowerBetween_escape (by rw [meetsCased_special percent, none])
      (by rw [meetsCased_special percent, none])
  rw [containing, List.cons_append, Text.lower, Text.lowerAfter_cons, Text.lowerAfter_append, inside,
    Text.lowerAfter_cons, lowerIn_special percent, lowerIn_special percent]
  rfl

/-- The pattern of a substring test and the test in memory answer alike. -/
theorem matchesLower_containing (s text : List Char) :
    matchesLower (containing s) text = occursInLower s text := by
  rw [Bool.eq_iff_iff, matchesLower, lower_containing, matchesText_containing, occursInLower,
    occursIn_eq_true_iff]

theorem compileFilter_contains {f : TypedFilter} {s : String} (contains : f.operator = .contains)
    (given : f.value = some (.text s)) (start : Nat) :
    ∃ fragment, Sql.compileFilter f start = .ok fragment ∧
      fragment.sql = f.column ++ " ILIKE " ++ Sql.placeholder (max start 1) ∧
      fragment.params = [.text (containingText s)] := by
  obtain ⟨field, column, operator, value⟩ := f
  cases contains
  cases given
  refine ⟨_, rfl, ?_, rfl⟩
  change column ++ " " ++ "ILIKE" ++ " " ++ Sql.placeholder (max start 1) = _
  simp only [String.append_assoc]
  rfl

/-- An escaped text is matched by that text alone, and the pattern of a substring test by the texts in
which the substring occurs. In SQL a substring test is a match without regard to letter case against
that pattern, which has the answer of the test in memory. -/
theorem escaped_matches_itself :
    (∀ s t : String, matchesText (escapeText s).toList t.toList = true ↔ s = t) ∧
    (∀ s t : String, matchesText (containingText s).toList t.toList = true ↔
      s.toList <:+: t.toList) ∧
    ∀ (f : TypedFilter) (record : Record) (s t : String) (start : Nat),
      f.operator = .contains → f.value = some (.text s) →
        Json.member? record f.field = some (.string t) →
          ∃ fragment parameter, Sql.compileFilter f start = .ok fragment ∧
            fragment.sql = f.column ++ " ILIKE " ++ Sql.placeholder (max start 1) ∧
            fragment.params = [.text parameter] ∧ parameter = containingText s ∧
            matchesLower parameter.toList t.toList = f.accepts record := by
  refine ⟨fun s t => ?_, fun s t => ?_, fun f record s t start contains given found => ?_⟩
  · rw [escapeText, String.toList_ofList, matchesText_escape, String.toList_inj]
  · rw [containingText, String.toList_ofList, matchesText_containing]
  · obtain ⟨fragment, compiled, sql, params⟩ := compileFilter_contains contains given start
    have decides := TypedFilter.accepts_eq_satisfies (by rw [contains]; rfl)
      (Matching.fieldValue?_eq found rfl) given
    refine ⟨fragment, _, compiled, sql, params, rfl, ?_⟩
    rw [containingText, String.toList_ofList, matchesLower_containing, decides, contains]
    rfl

/-- A sigma at the end of a word, which stays one when a backslash is put behind it. -/
theorem escaped_matches_itself_street :
    let f : TypedFilter := ⟨"street", "street", .contains, some (.text "ΟΔΟΣ_")⟩
    let record : Record := [("street", .string "οδος_5")]
    matchesText (escapeText "ΟΔΟΣ_").toList "ΟΔΟΣ_".toList = true ∧
      f.accepts record = true ∧
      ∃ fragment, Sql.compileFilter f 0 = .ok fragment ∧ fragment.sql = "street ILIKE $1" ∧
        fragment.params = [.text "%ΟΔΟΣ\\_%"] ∧
        matchesLower "%ΟΔΟΣ\\_%".toList "οδος_5".toList = true := by
  intro f record
  obtain ⟨escaped, _, contains⟩ := escaped_matches_itself
  have accepted : f.accepts record = true := by decide +kernel
  have pattern : containingText "ΟΔΟΣ_" = "%ΟΔΟΣ\\_%" := by decide +kernel
  obtain ⟨fragment, _, compiled, sql, params, rfl, same⟩ :=
    contains f record "ΟΔΟΣ_" "οδος_5" 0 rfl rfl rfl
  rw [pattern] at params same
  exact ⟨(escaped _ _).mpr rfl, accepted, fragment, compiled, sql, params, same.trans accepted⟩

end Sieve.Pattern
