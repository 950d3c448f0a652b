import ApiPages.Text.Blank

/-!
# Code fences

A line that begins with three backticks, after blanks or not, is a fence. It opens a block of code
or closes the one that is open; the comment reader and the linker of code spans go by this rule.
-/

namespace ApiPages.Text

/-- The mark of a fence. -/
def fenceMark : List Char :=
  ['\x60', '\x60', '\x60']

/-- Whether a line is a fence. -/
def isFence (line : List Char) : Bool :=
  fenceMark.isPrefixOf (dropBlankStart line)

end ApiPages.Text
