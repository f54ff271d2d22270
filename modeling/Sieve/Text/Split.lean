/-! Texts cut at a separating character and joined again. -/
namespace Sieve.Text

/-- The pieces between the separators; a text without one is a single piece. -/
def pieces (separator : Char) : List Char → List (List Char)
  | [] => [[]]
  | c :: rest =>
    if c = separator then [] :: pieces separator rest
    else match pieces separator rest with
      | [] => [[c]]
      | piece :: others => (c :: piece) :: others

def cut (separator : Char) : List Char → List Char × Option (List Char)
  | [] => ([], none)
  | c :: rest =>
    if c = separator then ([], some rest)
    else ((c :: (cut separator rest).1), (cut separator rest).2)

def joined (separator : String) : List String → String
  | [] => ""
  | [part] => part
  | part :: next :: others => part ++ separator ++ joined separator (next :: others)

theorem pieces_ne_nil (separator : Char) (s : List Char) : pieces separator s ≠ [] := by
  induction s with
  | nil => simp [pieces]
  | cons c rest ih =>
    rw [pieces]
    split
    · simp
    · split <;> simp

theorem cut_of_not_mem {separator : Char} {s : List Char} (absent : separator ∉ s) :
    cut separator s = (s, none) := by
  induction s with
  | nil => rfl
  | cons c rest ih =>
    simp only [List.mem_cons, not_or] at absent
    simp [cut, Ne.symm absent.1, ih absent.2]

theorem cut_append {separator : Char} {s : List Char} (rest : List Char)
    (absent : separator ∉ s) : cut separator (s ++ separator :: rest) = (s, some rest) := by
  induction s with
  | nil => simp [cut]
  | cons c tail ih =>
    simp only [List.mem_cons, not_or] at absent
    simp [cut, Ne.symm absent.1, ih absent.2]

end Sieve.Text
