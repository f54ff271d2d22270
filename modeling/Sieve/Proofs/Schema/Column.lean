import Sieve.Schema.Basic

/-! The characters of columns. -/
namespace Sieve

theorem Text.mem_pieces (separator : Char) {c : Char} {s : List Char} (member : c ∈ s) :
    c = separator ∨ ∃ piece ∈ pieces separator s, c ∈ piece := by
  induction s with
  | nil => cases member
  | cons d rest ih =>
    by_cases cut : d = separator
    · rw [pieces, if_pos cut]
      rcases List.mem_cons.mp member with same | later
      · exact .inl (same.trans cut)
      · rcases ih later with same | ⟨piece, inPieces, inPiece⟩
        · exact .inl same
        · exact .inr ⟨piece, List.mem_cons_of_mem _ inPieces, inPiece⟩
    · rw [pieces, if_neg cut]
      cases others : pieces separator rest with
      | nil => exact absurd others (pieces_ne_nil separator rest)
      | cons first others' =>
        rcases List.mem_cons.mp member with same | later
        · exact .inr ⟨d :: first, List.mem_cons_self, same ▸ List.mem_cons_self⟩
        · rcases ih later with same | ⟨piece, inPieces, inPiece⟩
          · exact .inl same
          · rw [others] at inPieces
            rcases List.mem_cons.mp inPieces with same | inOthers
            · exact .inr ⟨d :: first, List.mem_cons_self, .tail _ (same ▸ inPiece)⟩
            · exact .inr ⟨piece, .tail _ inOthers, inPiece⟩

def isColumnChar (c : Char) : Bool :=
  c.isAlphanum || c == '_' || c == '.'

theorem isColumnChar_of_isIdentifier {s : List Char} (identifier : isIdentifier s = true) {c : Char}
    (member : c ∈ s) : isColumnChar c = true := by
  cases s with
  | nil => cases member
  | cons first rest =>
    simp only [isIdentifier, Bool.and_eq_true, Bool.or_eq_true, List.all_eq_true] at identifier
    simp only [isColumnChar, Bool.or_eq_true]
    rcases List.mem_cons.mp member with rfl | later
    · rcases identifier.1 with letter | underscore
      · exact .inl (.inl (by simp only [Char.isAlphanum, letter, Bool.true_or]))
      · exact .inl (.inr underscore)
    · exact .inl (identifier.2 c later)

theorem isColumnChar_of_isColumn {column : String} (sound : isColumn column = true) {c : Char}
    (member : c ∈ column.toList) : isColumnChar c = true := by
  rcases Text.mem_pieces '.' member with rfl | ⟨piece, inPieces, inPiece⟩
  · decide
  · unfold isColumn at sound
    split at sound
    next name same =>
      rw [same, List.mem_singleton] at inPieces
      subst inPieces
      exact isColumnChar_of_isIdentifier sound inPiece
    next table name same =>
      rw [same, List.mem_cons, List.mem_singleton] at inPieces
      rw [Bool.and_eq_true] at sound
      rcases inPieces with rfl | rfl
      · exact isColumnChar_of_isIdentifier sound.1 inPiece
      · exact isColumnChar_of_isIdentifier sound.2 inPiece
    next => cases sound

theorem column_ne_nil {column : String} (sound : isColumn column = true) : column.toList ≠ [] := by
  intro empty
  simp [isColumn, empty, Text.pieces, isIdentifier] at sound

theorem Schema.isColumn_of_field? {s : Schema} {name : String} {d : FieldDefinition}
    (found : s.field? name = some d) : isColumn d.column = true := by
  obtain ⟨f, search, rfl⟩ := Option.map_eq_some_iff.mp found
  have sound := s.sound f (List.mem_of_find?_eq_some search)
  simp only [FieldDefinition.isSound, Bool.and_eq_true] at sound
  exact sound.1.1.1

end Sieve
