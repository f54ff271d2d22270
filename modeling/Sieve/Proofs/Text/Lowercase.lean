import Sieve.Text.Lowercase

/-! Lower case of the parts of a text. What a part becomes depends on its surroundings in capital
sigmas only, and on no more of the surroundings than whether a cased letter is met on either side. -/
namespace Sieve.Text

def dottedI : Char :=
  Char.ofNat 0x130

/-- The lower case of a character between what stands before it, read backwards, and what stands
after it. -/
def lowerIn (before : List Char) (c : Char) (after : List Char) : List Char :=
  if c = capitalSigma then [lowerSigma before after] else lowerChar c

def lowerBetween (before : List Char) : List Char → List Char → List Char
  | [], _ => []
  | c :: rest, after => lowerIn before c (rest ++ after) ++ lowerBetween (c :: before) rest after

variable {before after others : List Char} {c d : Char}

theorem lowerAfter_cons (before : List Char) (c : Char) (rest : List Char) :
    lowerAfter before (c :: rest) = lowerIn before c rest ++ lowerAfter (c :: before) rest :=
  rfl

theorem lowerAfter_append (before s after : List Char) :
    lowerAfter before (s ++ after) =
      lowerBetween before s after ++ lowerAfter (s.reverse ++ before) after := by
  induction s generalizing before with
  | nil => rfl
  | cons c rest ih =>
    rw [List.cons_append, lowerAfter_cons, ih, lowerBetween, List.append_assoc, List.reverse_cons,
      List.append_assoc, List.singleton_append]

theorem lower_eq_lowerBetween (s : List Char) : lower s = lowerBetween [] s [] := by
  have whole := lowerAfter_append [] s []
  rwa [List.append_nil, lowerAfter, List.append_nil] at whole

theorem lowerRuns_bounds : ∀ run ∈ lowerRuns, 97 ≤ (run.first : Int) + run.shift ∧
    ((run.last : Int) + run.shift < 0xD800 ∨
      0xE000 ≤ (run.first : Int) + run.shift ∧ (run.last : Int) + run.shift < 0x110000) := by
  decide +kernel

theorem lowerChar_cases (c : Char) : lowerChar c = [c] ∨
    c = dottedI ∧ lowerChar c = ['i', Char.ofNat 0x307] ∨
    ∃ d : Char, lowerChar c = [d] ∧ 97 ≤ d.toNat := by
  unfold lowerChar
  split
  next => exact .inl rfl
  next =>
    split
    next dotted =>
      refine .inr (.inl ⟨?_, rfl⟩)
      rw [dottedI, ← dotted, Char.ofNat_toNat]
    next =>
      split
      next run found =>
        have inRun := List.find?_some found
        simp only [Bool.and_eq_true, decide_eq_true_eq] at inRun
        obtain ⟨least, valid⟩ := lowerRuns_bounds run (List.mem_of_find?_eq_some found)
        have character : ((c.toNat : Int) + run.shift).toNat.isValidChar := by
          simp only [Nat.isValidChar]
          omega
        refine .inr (.inr ⟨_, rfl, ?_⟩)
        rw [Char.ofNat, dif_pos character]
        change 97 ≤ ((c.toNat : Int) + run.shift).toNat
        omega
      next => exact .inl rfl

theorem exists_lowerChar (single : c ≠ dottedI) : ∃ d, lowerChar c = [d] := by
  rcases lowerChar_cases c with same | ⟨dotted, _⟩ | ⟨d, lower, _⟩
  · exact ⟨c, same⟩
  · exact absurd dotted single
  · exact ⟨d, lower⟩

theorem lowerChar_bounds (member : d ∈ lowerChar c) : d = c ∨ 97 ≤ d.toNat := by
  rcases lowerChar_cases c with same | ⟨_, lower⟩ | ⟨e, lower, least⟩
  · rw [same, List.mem_singleton] at member
    exact .inl member
  · rw [lower, List.mem_cons, List.mem_singleton] at member
    rcases member with rfl | rfl <;> exact .inr (by decide)
  · rw [lower, List.mem_singleton] at member
    exact .inr (member ▸ least)

/-- Every character but one becomes a single character. -/
theorem exists_lowerIn (single : c ≠ dottedI) (before after : List Char) :
    ∃ d, lowerIn before c after = [d] := by
  unfold lowerIn
  split
  next => exact ⟨_, rfl⟩
  next => exact exists_lowerChar single

theorem lowerIn_ne_nil (before : List Char) (c : Char) (after : List Char) :
    lowerIn before c after ≠ [] := by
  unfold lowerIn
  split
  next => exact List.cons_ne_nil _ _
  next =>
    rcases lowerChar_cases c with lower | ⟨_, lower⟩ | ⟨_, lower, _⟩ <;> rw [lower] <;>
      exact List.cons_ne_nil _ _

/-- A character becomes nothing that stands before the small letters of ASCII, unless it is that
itself. -/
theorem lowerIn_bounds (member : d ∈ lowerIn before c after) : d = c ∨ 97 ≤ d.toNat := by
  unfold lowerIn at member
  split at member
  next =>
    rw [List.mem_singleton] at member
    subst member
    unfold lowerSigma
    split <;> exact .inr (by decide)
  next => exact lowerChar_bounds member

theorem meetsCased_cons (c : Char) (s : List Char) :
    meetsCased (c :: s) = if isCaseIgnorable c then meetsCased s else isCased c := by
  unfold meetsCased
  rw [List.dropWhile_cons]
  cases isCaseIgnorable c <;> rfl

def sigmaForm? (s : List Char) (i : Nat) : Option Char :=
  if s[i]? = some capitalSigma then some (lowerSigma (s.take i).reverse (s.drop (i + 1))) else none

def SigmaDiffers (s t : List Char) : Prop :=
  ∃ i < s.length, ∃ j < t.length, (sigmaForm? s i).isSome = true ∧
    (sigmaForm? t j).isSome = true ∧ sigmaForm? s i ≠ sigmaForm? t j

/-- Whether a capital sigma of a part of a text has another form in the whole text. -/
def SigmaMoves (before s after : List Char) : Prop :=
  ∃ i < s.length, sigmaForm? s i ≠ sigmaForm? (before ++ s ++ after) (before.length + i)

instance (s t : List Char) : Decidable (SigmaDiffers s t) :=
  inferInstanceAs (Decidable (∃ i < s.length, ∃ j < t.length, _ ∧ _ ∧ _))

instance (before s after : List Char) : Decidable (SigmaMoves before s after) :=
  inferInstanceAs (Decidable (∃ i < s.length, _))

theorem sigmaForm?_append (front back : List Char) :
    sigmaForm? (front ++ capitalSigma :: back) front.length =
      some (lowerSigma front.reverse back) := by
  have behind : (front ++ capitalSigma :: back).drop (front.length + 1) = back := by
    rw [List.drop_append, List.drop_eq_nil_of_le (Nat.le_succ _), Nat.add_sub_cancel_left]
    rfl
  rw [sigmaForm?, List.getElem?_append_right (Nat.le_refl _), Nat.sub_self,
    List.getElem?_cons_zero, if_pos rfl, List.take_left, behind]

theorem lowerSigma_eq_of_not_sigmaDiffers {s t front back front' back' : List Char}
    (steady : ¬SigmaDiffers s t) (here : s = front ++ capitalSigma :: back)
    (there : t = front' ++ capitalSigma :: back') :
    lowerSigma front.reverse back = lowerSigma front'.reverse back' := by
  have form := sigmaForm?_append front back
  have form' := sigmaForm?_append front' back'
  rw [← here] at form
  rw [← there] at form'
  refine Decidable.byContradiction fun differs => steady ⟨front.length, ?_, front'.length, ?_, ?_⟩
  · simp [here]
  · simp [there]
  · simp [form, form', differs]

theorem lowerIn_eq {before' after' : List Char}
    (same : c = capitalSigma → lowerSigma before' after' = lowerSigma before after) :
    lowerIn before' c after' = lowerIn before c after := by
  unfold lowerIn
  split
  next sigma => rw [same sigma]
  next => rfl

theorem lowerBetween_congr {s before' after' : List Char}
    (same : ∀ front back, s = front ++ capitalSigma :: back →
      lowerSigma (front.reverse ++ before') (back ++ after') =
        lowerSigma (front.reverse ++ before) (back ++ after)) :
    lowerBetween before' s after' = lowerBetween before s after := by
  induction s generalizing before before' with
  | nil => rfl
  | cons c rest ih =>
    rw [lowerBetween, lowerBetween]
    congr 1
    · apply lowerIn_eq
      rintro rfl
      exact same [] rest rfl
    · apply ih
      rintro front back rfl
      have moved := same (c :: front) back rfl
      rwa [List.reverse_cons, List.append_assoc, List.append_assoc] at moved

/-- A part of a text keeps its lower case in the text unless a sigma of it moves. -/
theorem lower_eq_of_not_sigmaMoves {s : List Char} (steady : ¬SigmaMoves before s after) :
    lowerBetween before.reverse s after = lower s := by
  rw [lower_eq_lowerBetween]
  apply lowerBetween_congr
  rintro front back rfl
  have alone := sigmaForm?_append front back
  have inside := sigmaForm?_append (before ++ front) (back ++ after)
  rw [List.length_append, List.append_assoc before front, ← List.cons_append,
    ← List.append_assoc front, ← List.append_assoc before] at inside
  rw [List.append_nil, List.append_nil, ← List.reverse_append]
  refine Decidable.byContradiction fun differs => steady ⟨front.length, by simp, ?_⟩
  rw [alone, inside]
  exact fun same => differs (Option.some.inj same).symm

end Sieve.Text
