/-!
# Lines and pieces

Cutting a text at a character. `pieces` keeps everything between two cuts, so the pieces joined by
the character give the text back; `lines` reads a line end as the mark that closes a line, so a
text that ends with one has no empty last line, and a carriage return before the mark belongs to it.
-/

namespace ApiPages.Text

/-- The stretches of a text between the occurrences of `sep`: one more than `sep` occurs. -/
def pieces (sep : Char) : List Char → List (List Char)
  | [] => [[]]
  | c :: cs =>
    if c = sep then [] :: pieces sep cs
    else
      match pieces sep cs with
      | [] => [[c]]
      | piece :: rest => (c :: piece) :: rest

/-- The text whose pieces are given. -/
def joinPieces (sep : Char) : List (List Char) → List Char
  | [] => []
  | [piece] => piece
  | piece :: rest => piece ++ sep :: joinPieces sep rest

theorem pieces_ne_nil (sep : Char) (cs : List Char) : pieces sep cs ≠ [] := by
  cases cs with
  | nil => simp [pieces]
  | cons c cs =>
    rw [pieces]
    split
    · simp
    · split <;> simp

/-- Cutting loses nothing but the character cut at. -/
theorem joinPieces_pieces (sep : Char) (cs : List Char) :
    joinPieces sep (pieces sep cs) = cs := by
  induction cs with
  | nil => rfl
  | cons c cs ih =>
    rw [pieces]
    cases h : pieces sep cs with
    | nil => exact absurd h (pieces_ne_nil sep cs)
    | cons piece rest =>
      rw [h] at ih
      split
      · next hc => simp [joinPieces, ih, hc]
      · cases rest <;> simp_all [joinPieces]

/-- A line without the carriage return that ends it. -/
def dropCarriageReturn (line : List Char) : List Char :=
  if line.getLast? = some '\r' then line.dropLast else line

/-- The lines among the pieces of a text cut at line ends: the last piece is a line only if there
is something in it. -/
def closedLines : List (List Char) → List (List Char)
  | [] => []
  | [last] => if last.isEmpty then [] else [last]
  | line :: rest => dropCarriageReturn line :: closedLines rest

/-- The lines of a text. -/
def lines (cs : List Char) : List (List Char) :=
  closedLines (pieces '\n' cs)

end ApiPages.Text
