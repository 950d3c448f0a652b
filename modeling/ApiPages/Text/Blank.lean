/-!
# Blank characters

The characters with the White_Space property, and what it means to trim a text. The work is done
on character lists; the functions on strings only convert.
-/

namespace ApiPages.Text

/-- Whether a character has the White_Space property. -/
def isBlank (c : Char) : Bool :=
  let n := c.toNat
  (0x09 ≤ n && n ≤ 0x0D) || n == 0x20 || n == 0x85 || n == 0xA0 || n == 0x1680 ||
    (0x2000 ≤ n && n ≤ 0x200A) || n == 0x2028 || n == 0x2029 || n == 0x202F || n == 0x205F ||
    n == 0x3000

/-- The blanks of ASCII that core knows are among them. -/
theorem isBlank_of_isWhitespace {c : Char} (h : c.isWhitespace = true) : isBlank c = true := by
  simp only [Char.isWhitespace, Bool.or_eq_true, decide_eq_true_eq] at h
  rcases h with ((rfl | rfl) | rfl) | rfl <;> rfl

/-- The text without the blanks it begins with. -/
def dropBlankStart (cs : List Char) : List Char :=
  cs.dropWhile isBlank

/-- The text without the characters of a class that it ends with. -/
def dropEndWhile (p : Char → Bool) (cs : List Char) : List Char :=
  (cs.reverse.dropWhile p).reverse

/-- The text without the blanks it ends with. -/
def dropBlankEnd (cs : List Char) : List Char :=
  dropEndWhile isBlank cs

/-- The text without the blanks at its two ends. -/
def dropBlanks (cs : List Char) : List Char :=
  dropBlankEnd (dropBlankStart cs)

/-- The string without the blanks at its two ends. -/
def trim (s : String) : String :=
  String.ofList (dropBlanks s.toList)

/-- The string without the blanks it ends with. -/
def trimEnd (s : String) : String :=
  String.ofList (dropBlankEnd s.toList)

/-- A text is blank when trimming it leaves nothing. -/
def isBlankText (s : String) : Bool :=
  s.toList.all isBlank

end ApiPages.Text
