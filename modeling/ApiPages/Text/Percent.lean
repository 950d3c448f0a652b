import ApiPages.Text.Hex

/-!
# Percent escapes

A byte is escaped as `%` and two capital hexadecimal digits. Links escape what a Markdown
destination cannot hold; file names escape only what would separate them.
-/

namespace ApiPages.Text

/-- The escape of a byte. -/
def percentByte (b : UInt8) : List Char :=
  ['%', hexDigit (b.toNat / 16), hexDigit (b.toNat % 16)]

/-- The escape of every byte of a character's UTF-8 form. -/
def percentChar (c : Char) : List Char :=
  (String.utf8EncodeChar c).flatMap percentByte

/-- Whether a link destination may hold the character as it is: a visible ASCII character other than
those that Markdown or a URL reads as marks. -/
def isLinkSafe (c : Char) : Bool :=
  0x20 < c.toNat && c.toNat < 0x7F &&
    !(c == '"' || c == '#' || c == '%' || c == '(' || c == ')' || c == '<' || c == '>' ||
      c == '?' || c == '\x60')

/-- A path as a link destination. -/
def percentEncode (cs : List Char) : List Char :=
  cs.flatMap fun c => if isLinkSafe c then [c] else percentChar c

/-- A name as one file name: separators are escaped, and so is `%` itself, which keeps distinct
names apart. -/
def fileName (name : List Char) : List Char :=
  name.flatMap fun c => if c = '%' ∨ c = '/' ∨ c = '\\' then percentChar c else [c]

end ApiPages.Text
