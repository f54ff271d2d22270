import Sieve.Text.Split

/-! Texts cut at a separator, and what joins the parts again. -/
namespace Sieve.Text

variable {separator : Char} {s : List Char}

theorem pieces_eq_splitOn (separator : Char) (s : List Char) :
    pieces separator s = s.splitOn separator := by
  induction s with
  | nil => rfl
  | cons c rest ih =>
    rw [pieces, List.splitOn_cons_eq_if_modifyHead, ← ih]
    by_cases cut : c = separator
    · simp [cut]
    · rw [if_neg cut, if_neg (by simpa using cut)]
      cases same : pieces separator rest with
      | nil => exact absurd same (pieces_ne_nil separator rest)
      | cons piece others => rfl

theorem intercalate_pieces (separator : Char) (s : List Char) :
    [separator].intercalate (pieces separator s) = s := by
  rw [pieces_eq_splitOn, List.intercalate_splitOn]

theorem pieces_intercalate {parts : List (List Char)}
    (absent : ∀ part ∈ parts, separator ∉ part) (nonempty : parts ≠ []) :
    pieces separator ([separator].intercalate parts) = parts := by
  rw [pieces_eq_splitOn, List.splitOn_intercalate separator absent nonempty]

theorem not_mem_of_mem_pieces {piece : List Char} (member : piece ∈ pieces separator s) :
    separator ∉ piece := by
  induction s generalizing piece with
  | nil =>
    rw [pieces, List.mem_singleton] at member
    exact member ▸ List.not_mem_nil
  | cons c rest ih =>
    rw [pieces] at member
    split at member
    next =>
      rcases List.mem_cons.mp member with rfl | later
      · exact List.not_mem_nil
      · exact ih later
    next differs =>
      split at member
      next none => exact absurd none (pieces_ne_nil separator rest)
      next first others same =>
        rcases List.mem_cons.mp member with rfl | later
        · rw [List.mem_cons, not_or]
          exact ⟨Ne.symm differs, ih (same ▸ List.mem_cons_self)⟩
        · exact ih (same ▸ List.mem_cons_of_mem first later)

theorem cut_spec (separator : Char) (s : List Char) :
    separator ∉ (cut separator s).1 ∧
      match (cut separator s).2 with
      | none => s = (cut separator s).1
      | some after => s = (cut separator s).1 ++ separator :: after := by
  induction s with
  | nil => exact ⟨List.not_mem_nil, rfl⟩
  | cons c rest ih =>
    rw [cut]
    split
    next same => exact ⟨List.not_mem_nil, congrArg (· :: rest) same⟩
    next differs =>
      obtain ⟨absent, whole⟩ := ih
      refine ⟨?_, ?_⟩
      · rw [List.mem_cons, not_or]
        exact ⟨Ne.symm differs, absent⟩
      · cases found : (cut separator rest).2 with
        | none =>
          rw [found] at whole
          exact congrArg (c :: ·) whole
        | some after =>
          rw [found] at whole
          exact congrArg (c :: ·) whole

theorem cut_eq_none_iff {before : List Char} :
    cut separator s = (before, none) ↔ s = before ∧ separator ∉ before := by
  constructor
  · intro same
    have spec := cut_spec separator s
    rw [same] at spec
    exact ⟨spec.2, spec.1⟩
  · rintro ⟨rfl, absent⟩
    exact cut_of_not_mem absent

theorem cut_eq_some_iff {before after : List Char} :
    cut separator s = (before, some after) ↔
      s = before ++ separator :: after ∧ separator ∉ before := by
  constructor
  · intro same
    have spec := cut_spec separator s
    rw [same] at spec
    exact ⟨spec.2, spec.1⟩
  · rintro ⟨rfl, absent⟩
    exact cut_append after absent

end Sieve.Text
