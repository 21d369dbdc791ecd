/-!
# Pieces of a text

A text is cut at every occurrence of a separator, so that a text without
separators has one piece and two separators in a row have an empty piece
between them.  Joining the pieces with the separator gives the text back.
-/

namespace Strata.Text

/-- The pieces between the separators of a text. -/
def pieces
    (separator : Char) :
    List Char → List (List Char)
  | [] => [[]]
  | character :: rest =>
    if character = separator then
      [] :: pieces separator rest
    else
      match pieces separator rest with
      | [] => [[character]]
      | piece :: others => (character :: piece) :: others

/-- The pieces with one separator between each two. -/
def joined
    (separator : Char) :
    List (List Char) → List Char
  | [] => []
  | [piece] => piece
  | piece :: others => piece ++ separator :: joined separator others

theorem pieces_ne_nil
    (separator : Char)
    (characters : List Char) :
    pieces separator characters ≠ [] := by
  cases characters with
  | nil => simp [pieces]
  | cons character rest =>
    rw [pieces]
    split
    · simp
    · split <;> simp

theorem joined_pieces
    (separator : Char)
    (characters : List Char) :
    joined separator (pieces separator characters) = characters := by
  induction characters with
  | nil => rfl
  | cons character rest ih =>
    rw [pieces]
    split
    · rename_i same
      cases cut : pieces separator rest with
      | nil => exact absurd cut (pieces_ne_nil separator rest)
      | cons piece others => simp [joined, ← cut, ih, same]
    · cases cut : pieces separator rest with
      | nil => exact absurd cut (pieces_ne_nil separator rest)
      | cons piece others =>
        rw [cut] at ih
        cases others <;> simp_all [joined]

theorem not_mem_of_mem_pieces
    {separator : Char}
    {characters piece : List Char}
    (member : piece ∈ pieces separator characters) :
    separator ∉ piece := by
  induction characters generalizing piece with
  | nil => simp_all [pieces]
  | cons character rest ih =>
    rw [pieces] at member
    split at member
    · rcases List.mem_cons.mp member with rfl | later
      · simp
      · exact ih later
    · rename_i different
      cases cut : pieces separator rest with
      | nil => exact absurd cut (pieces_ne_nil separator rest)
      | cons first others =>
        rw [cut] at member ih
        rcases List.mem_cons.mp member with rfl | later
        · have := ih (List.mem_cons_self ..)
          simp only [List.mem_cons, not_or]
          exact ⟨fun same => different same.symm, this⟩
        · exact ih (List.mem_cons_of_mem _ later)

end Strata.Text
