import Sieve.Proofs.Pattern.Escape

/-! What becomes of a match when letter case is ignored. Both texts are put in lower case as a whole,
and two characters can make a difference between them: the capital dotted I, which becomes two where
a place takes one, and the capital sigma, which is final in one text and not in the other. Nothing
else that is matched with regard to letter case is lost without it. -/
namespace Sieve.Pattern

open Text

variable {pattern text before before' after rest : List Char} {places : List Token} {c : Char}

theorem tokens_escaped_lowerIn (before : List Char) (c : Char) (after rest : List Char) :
    tokens ('\\' :: (lowerIn before c after ++ rest)) =
      (lowerIn before c after).map .literal ++ tokens rest := by
  cases kind : isSpecial c with
  | true => rw [lowerIn_special kind, List.singleton_append, tokens]; rfl
  | false =>
    have own := @isSpecial_of_mem_lowerIn before after c kind
    obtain ⟨first, others, lower⟩ := List.exists_cons_of_ne_nil (lowerIn_ne_nil before c after)
    rw [lower] at own ⊢
    rw [List.cons_append, tokens, tokens_append_of_plain (List.forall_mem_cons.mp own).2,
      List.map_cons, List.cons_append]

theorem tokens_lowerIn_append (own : isSpecial c = false) (before after rest : List Char) :
    tokens (lowerIn before c after ++ rest) =
      (lowerIn before c after).map .literal ++ tokens rest :=
  tokens_append_of_plain (isSpecial_of_mem_lowerIn own) rest

theorem cuts_literals_append (s : List Char) (cut : Cuts places text) :
    Cuts (s.map .literal ++ places) (s ++ text) :=
  cuts_append_iff.mpr ⟨s, text, rfl, cuts_literals_iff.mpr rfl, cut⟩

/-- Whether a pattern has a place for any one character, and a text the character that becomes two. -/
def Stretches (pattern text : List Char) : Prop :=
  .anyOne ∈ tokens pattern ∧ dottedI ∈ text

instance (pattern text : List Char) : Decidable (Stretches pattern text) :=
  inferInstanceAs (Decidable (_ ∧ _))

theorem single_of_append {place : Token} {run : List Char}
    (single : .anyOne ∉ place :: places ∨ dottedI ∉ run ++ text) :
    .anyOne ∉ places ∨ dottedI ∉ text := by
  apply single.imp
  · exact fun none member => none (.tail place member)
  · exact fun none member => none (List.mem_append_right run member)

/-- What is left of a pattern takes in lower case what is left of a text, if it takes it as they are
written. What came before is known by what a sigma meets there. -/
theorem cuts_lowerAfter {wholePattern wholeText : List Char}
    (steady : ¬SigmaDiffers wholePattern wholeText) (written : Written pattern places)
    (inPattern : wholePattern = before.reverse ++ pattern)
    (inText : wholeText = before'.reverse ++ text)
    (single : .anyOne ∉ places ∨ dottedI ∉ text) (cut : Cuts places text) :
    Cuts (tokens (lowerAfter before pattern)) (lowerAfter before' text) := by
  -- A sigma that is taken by itself has the same form on both sides.
  have same (front back front' back' : List Char) (c : Char)
      (here : wholePattern = front.reverse ++ c :: back)
      (there : wholeText = front'.reverse ++ c :: back') :
      lowerIn front c back = lowerIn front' c back' := by
    apply lowerIn_eq
    rintro rfl
    simpa using lowerSigma_eq_of_not_sigmaDiffers steady here there
  induction written generalizing before before' text with
  | nil =>
    rw [cuts_nil_iff.mp cut]
    exact cuts_nil_iff.mpr rfl
  | @escaped rest places c others ih =>
    obtain ⟨_, left, rfl, rfl, later⟩ := cuts_cons_iff.mp cut
    have low := same ('\\' :: before) rest before' left c (by simpa using inPattern) inText
    have backslash : lowerIn before '\\' (c :: rest) = ['\\'] := lowerIn_special rfl _ _
    rw [lowerAfter_cons, backslash, lowerAfter_cons, List.singleton_append, tokens_escaped_lowerIn,
      List.singleton_append, lowerAfter_cons, ← low]
    apply cuts_literals_append
    exact ih (by simpa using inPattern) (by simpa using inText) (single_of_append single) later
  | lastBackslash =>
    obtain ⟨_, left, rfl, rfl, later⟩ := cuts_cons_iff.mp cut
    have backslash (front back : List Char) : lowerIn front '\\' back = ['\\'] :=
      lowerIn_special rfl front back
    rw [cuts_nil_iff.mp later, List.singleton_append, lowerAfter_cons, backslash, lowerAfter_cons,
      backslash]
    exact cuts_singleton_iff.mpr rfl
  | @anyMany rest places others ih =>
    obtain ⟨run, left, rfl, -, later⟩ := cuts_cons_iff.mp cut
    have percent : lowerIn before '%' rest = ['%'] := lowerIn_special rfl _ _
    rw [lowerAfter_cons, percent, lowerAfter_append]
    refine cuts_anyMany_cons_iff.mpr ⟨_, _, rfl, ?_⟩
    exact ih (by simpa using inPattern) (by simpa using inText) (single_of_append single) later
  | @anyOne rest places others ih =>
    obtain ⟨_, left, rfl, ⟨c, rfl⟩, later⟩ := cuts_cons_iff.mp cut
    have undotted : c ≠ dottedI := by
      rintro rfl
      simp at single
    obtain ⟨d, low⟩ := exists_lowerIn undotted before' left
    have underscore : lowerIn before '_' rest = ['_'] := lowerIn_special rfl _ _
    rw [lowerAfter_cons, underscore, List.singleton_append, List.singleton_append, lowerAfter_cons, low]
    refine cuts_cons_iff.mpr ⟨[d], _, rfl, ⟨d, rfl⟩, ?_⟩
    exact ih (by simpa using inPattern) (by simpa using inText) (single_of_append single) later
  | @plain c rest places own others ih =>
    obtain ⟨_, left, rfl, rfl, later⟩ := cuts_cons_iff.mp cut
    have low := same before rest before' left c inPattern inText
    rw [lowerAfter_cons, tokens_lowerIn_append own, List.singleton_append, lowerAfter_cons, ← low]
    apply cuts_literals_append
    exact ih (by simpa using inPattern) (by simpa using inText) (single_of_append single) later

/-- A match is lost with letter case only if a character becomes two where a place takes one, or a
sigma is final on one side only. -/
theorem matchesLower_of_matchesText (accepted : matchesText pattern text = true) :
    matchesLower pattern text = true ∨ Stretches pattern text ∨ SigmaDiffers pattern text := by
  by_cases stretches : Stretches pattern text
  · exact .inr (.inl stretches)
  by_cases differs : SigmaDiffers pattern text
  · exact .inr (.inr differs)
  · rw [matchesText_eq_true_iff] at accepted
    exact .inl (matchesText_eq_true_iff.mpr (cuts_lowerAfter differs (written_tokens pattern) rfl rfl
      (not_and_or.mp stretches) accepted))

theorem occursInLower_of_eq_append {front needle back : List Char}
    (steady : ¬SigmaMoves front needle back) :
    occursInLower needle (front ++ needle ++ back) = true := by
  have parts : lower (front ++ needle ++ back) = lowerBetween [] front (needle ++ back) ++
      (lower needle ++ lowerAfter (needle.reverse ++ front.reverse) back) := by
    rw [List.append_assoc, lower, lowerAfter_append, lowerAfter_append, List.append_nil,
      lower_eq_of_not_sigmaMoves steady]
  rw [occursInLower, occursIn_eq_true_iff, parts]
  exact ⟨_, _, List.append_assoc _ _ _⟩

/-- A record that a pattern or a substring accepts with regard to letter case is accepted without it,
unless the text has a character that becomes two where the pattern can take one, or a sigma is final
in one text and not in the other. -/
theorem like_kept_ignoring_case :
    ∀ (f : TypedFilter) (record : Record) (p t : String), f.value = some (.text p) →
      Json.member? record f.field = some (.string t) →
        (({ f with operator := .like } : TypedFilter).accepts record = true →
          ({ f with operator := .ilike } : TypedFilter).accepts record = true ∨
            Stretches p.toList t.toList ∨ SigmaDiffers p.toList t.toList) ∧
        ∀ front back, t.toList = front ++ p.toList ++ back →
          ({ f with operator := .contains } : TypedFilter).accepts record = true ∨
            SigmaMoves front p.toList back := by
  intro f record p t given found
  have decides (op : Operator) (takes : op.takesValue = true) :
      ({ f with operator := op } : TypedFilter).accepts record =
        Matching.satisfies op (.string t) (.text p) :=
    TypedFilter.accepts_eq_satisfies takes (Matching.fieldValue?_eq found rfl) given
  rw [decides .like rfl, decides .ilike rfl, decides .contains rfl]
  constructor
  · exact matchesLower_of_matchesText
  · intro front back whole
    by_cases moves : SigmaMoves front p.toList back
    · exact .inr moves
    · have occurs := occursInLower_of_eq_append moves
      rw [← whole] at occurs
      exact .inl occurs

/-- A sigma that ends a word in the pattern, in the substring and in the text, and a dotted I that is
taken by itself. -/
theorem like_kept_ignoring_case_street :
    let f : TypedFilter := ⟨"street", "street", .eq, some (.text "ΟΔΟΣ%İ")⟩
    let g : TypedFilter := ⟨"street", "street", .eq, some (.text "ΟΔΟΣ")⟩
    let record : Record := [("street", .string "ΟΔΟΣ İ")]
    ({ f with operator := .like } : TypedFilter).accepts record = true ∧
      ({ f with operator := .ilike } : TypedFilter).accepts record = true ∧
      ({ g with operator := .contains } : TypedFilter).accepts record = true := by
  intro f g record
  have like : ({ f with operator := .like } : TypedFilter).accepts record = true := by
    decide +kernel
  have steady : ¬(Stretches "ΟΔΟΣ%İ".toList "ΟΔΟΣ İ".toList ∨
      SigmaDiffers "ΟΔΟΣ%İ".toList "ΟΔΟΣ İ".toList) := by decide +kernel
  have unmoved : ¬SigmaMoves [] "ΟΔΟΣ".toList " İ".toList := by decide +kernel
  obtain ⟨kept, _⟩ := like_kept_ignoring_case f record _ _ rfl rfl
  obtain ⟨_, occurs⟩ := like_kept_ignoring_case g record _ _ rfl rfl
  exact ⟨like, (kept like).resolve_right steady, (occurs [] " İ".toList rfl).resolve_right unmoved⟩

/-- The place of an underscore is too small for the lower case of a dotted I, and a sigma that ends a
word in the pattern or in the substring is not the one within the word in the text. -/
theorem like_lost_ignoring_case :
    let name (pattern : String) (op : Operator) : TypedFilter :=
      ⟨"name", "name", op, some (.text pattern)⟩
    let city : Record := [("name", .string "İzmir")]
    let word : Record := [("name", .string "ΑΣΑ")]
    ((name "_zmir" .like).accepts city = true ∧ (name "_zmir" .ilike).accepts city = false) ∧
      ((name "ΑΣ%" .like).accepts word = true ∧ (name "ΑΣ%" .ilike).accepts word = false) ∧
      "ΑΣ".toList <:+: "ΑΣΑ".toList ∧ (name "ΑΣ" .contains).accepts word = false := by
  intro name city word
  have dotted : (name "_zmir" .like).accepts city = true ∧
      (name "_zmir" .ilike).accepts city = false := by decide +kernel
  have final : (name "ΑΣ%" .like).accepts word = true ∧
      (name "ΑΣ%" .ilike).accepts word = false := by decide +kernel
  have part : (name "ΑΣ" .contains).accepts word = false := by decide +kernel
  exact ⟨dotted, final, ⟨[], ['Α'], rfl⟩, part⟩

end Sieve.Pattern
