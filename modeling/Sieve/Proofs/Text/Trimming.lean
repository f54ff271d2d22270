import Mathlib.Data.List.DropRight
import Sieve.Text.Blank

/-! What is left of a text when the white space at its ends is dropped. -/
namespace Sieve.Text

theorem trimStart_eq_nil_iff {s : List Char} : trimStart s = [] ↔ ∀ c ∈ s, isBlank c = true :=
  List.dropWhile_eq_nil_iff

theorem trim_eq_nil_iff {s : List Char} : trim s = [] ↔ ∀ c ∈ s, isBlank c = true := by
  have atEnd : trim s = [] ↔ trimStart (trimStart s) = [] := by
    rw [trimStart_eq_nil_iff]
    simp [trim, trimEnd, List.dropWhile_eq_nil_iff]
  have atStart : trimStart (trimStart s) = trimStart s := List.dropWhile_idempotent isBlank s
  rw [atEnd, atStart, trimStart_eq_nil_iff]

theorem trimStart_cons {c : Char} (visible : isBlank c = false) (s : List Char) :
    trimStart (c :: s) = c :: s :=
  List.dropWhile_cons_of_neg (by simp [visible])

def VisibleEnds (s : List Char) : Prop :=
  (∀ c ∈ s.head?, isBlank c = false) ∧ ∀ c ∈ s.getLast?, isBlank c = false

instance (s : List Char) : Decidable (VisibleEnds s) :=
  decidable_of_iff
    (s.head?.all (fun c => !isBlank c) = true ∧ s.getLast?.all (fun c => !isBlank c) = true)
    (by simp [VisibleEnds, Option.all_eq_true])

theorem head?_trimStart {s : List Char} {c : Char} (first : c ∈ (trimStart s).head?) :
    isBlank c = false := by
  have visible := List.head?_dropWhile_not isBlank s
  rw [trimStart] at first
  rw [Option.mem_def.mp first] at visible
  simpa using visible

theorem trimEnd_isPrefix (s : List Char) : trimEnd s <+: s := by
  have suffix := List.dropWhile_suffix isBlank (l := s.reverse)
  rw [trimEnd, ← List.reverse_suffix, List.reverse_reverse]
  exact suffix

theorem trim_sublist (s : List Char) : (trim s).Sublist s :=
  (trimEnd_isPrefix (trimStart s)).sublist.trans (List.dropWhile_suffix isBlank).sublist

theorem visibleEnds_trim (s : List Char) : VisibleEnds (trim s) := by
  constructor
  · intro c first
    -- What is dropped at the end leaves the first character, if it leaves any.
    obtain ⟨dropped, whole⟩ := trimEnd_isPrefix (trimStart s)
    have head : (trimEnd (trimStart s)).head? = some c := first
    apply @head?_trimStart s
    rw [← whole, List.head?_append, head]
    rfl
  · intro c last
    apply @head?_trimStart (trimStart s).reverse
    rwa [trim, trimEnd, List.getLast?_reverse] at last

theorem trim_of_visibleEnds {s : List Char} (visible : VisibleEnds s) : trim s = s := by
  have keeps {t : List Char} (first : ∀ c ∈ t.head?, isBlank c = false) :
      t.dropWhile isBlank = t := by
    cases t with
    | nil => rfl
    | cons c t => exact List.dropWhile_cons_of_neg (by simp [first c rfl])
  have atEnd : ∀ c ∈ s.reverse.head?, isBlank c = false := by
    rw [List.head?_reverse]
    exact visible.2
  rw [trim, trimStart, keeps visible.1, trimEnd, keeps atEnd, List.reverse_reverse]

theorem trim_of_visible {s : List Char} (visible : ∀ c ∈ s, isBlank c = false) : trim s = s :=
  trim_of_visibleEnds ⟨fun c first => visible c (List.mem_of_mem_head? first),
    fun c last => visible c (List.mem_of_getLast? last)⟩

/-- White space at the ends makes no difference to what is left. -/
theorem trim_surrounded {before after : List Char} (blankBefore : ∀ c ∈ before, isBlank c = true)
    (blankAfter : ∀ c ∈ after, isBlank c = true) (s : List Char) :
    trim (before ++ s ++ after) = trim s := by
  have atStart : trimStart (before ++ s ++ after) = trimStart (s ++ after) := by
    rw [trimStart, List.append_assoc, List.dropWhile_append_of_pos blankBefore, trimStart]
  have atEnd (t : List Char) : trimEnd (t ++ after) = trimEnd t := by
    have blank : ∀ c ∈ after.reverse, isBlank c = true := fun c member =>
      blankAfter c (List.mem_reverse.mp member)
    rw [trimEnd, List.reverse_append, List.dropWhile_append_of_pos blank, trimEnd]
  by_cases nothing : ∀ c ∈ s, isBlank c = true
  · rw [trim_eq_nil_iff.mpr nothing, trim_eq_nil_iff]
    simp only [List.forall_mem_append]
    exact ⟨⟨blankBefore, nothing⟩, blankAfter⟩
  · have something : (trimStart s).isEmpty = false := by
      rw [List.isEmpty_eq_false_iff]
      exact mt trimStart_eq_nil_iff.mp nothing
    have keeps : trimStart (s ++ after) = trimStart s ++ after := by
      rw [trimStart, List.dropWhile_append, ← trimStart, something]
      rfl
    rw [trim, atStart, keeps, atEnd, trim]

structure Trims (s t : List Char) : Prop where
  surrounded : ∃ before after, s = before ++ t ++ after ∧
    (∀ c ∈ before, isBlank c = true) ∧ ∀ c ∈ after, isBlank c = true
  visible : VisibleEnds t

theorem trimEnd_append_blank (s : List Char) :
    ∃ after, s = trimEnd s ++ after ∧ ∀ c ∈ after, isBlank c = true := by
  refine ⟨(s.reverse.takeWhile isBlank).reverse, ?_, ?_⟩
  · rw [trimEnd, ← List.reverse_append, List.takeWhile_append_dropWhile, List.reverse_reverse]
  · intro c member
    exact List.mem_takeWhile_imp (List.mem_reverse.mp member)

theorem trims_trim (s : List Char) : Trims s (trim s) where
  surrounded := by
    obtain ⟨after, ends, blankAfter⟩ := trimEnd_append_blank (trimStart s)
    refine ⟨s.takeWhile isBlank, after, ?_, fun c => List.mem_takeWhile_imp, blankAfter⟩
    rw [trim, List.append_assoc, ← ends, trimStart, List.takeWhile_append_dropWhile]
  visible := visibleEnds_trim s

theorem trims_iff {s t : List Char} : Trims s t ↔ trim s = t := by
  constructor
  · rintro ⟨⟨before, after, rfl, blankBefore, blankAfter⟩, visible⟩
    rw [trim_surrounded blankBefore blankAfter, trim_of_visibleEnds visible]
  · rintro rfl
    exact trims_trim s

def Visible (s : List Char) : Prop :=
  ∃ c ∈ s, isBlank c = false

theorem visible_iff {s : List Char} : Visible s ↔ trim s ≠ [] := by
  simp [Visible, trim_eq_nil_iff]

end Sieve.Text
