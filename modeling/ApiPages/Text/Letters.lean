import ApiPages.Text.CodePoints

/-!
# Letters and their case

Which characters count as letters or digits, and the small letters of a text. Below U+0080 the
answers are those of ASCII; above, the tables of `CodePoints` decide.
-/

namespace ApiPages.Text

/-- Whether a character is alphabetic or numeric. -/
def isAlphanumeric (c : Char) : Bool :=
  if c.toNat < 0x80 then c.isAlphanum else inRanges alphanumericRanges c.toNat

/-- Whether a character has case. -/
def isCased (c : Char) : Bool :=
  if c.toNat < 0x80 then c.isAlpha else inRanges casedRanges c.toNat

/-- Whether a search for a neighbouring cased letter steps over the character. -/
def isCaseIgnorable (c : Char) : Bool :=
  if c.toNat < 0x80 then c == '\x27' || c == '.' || c == ':' || c == '^' || c == '\x60'
  else inRanges caseIgnorableRanges c.toNat

/-- The small letter of a code point in the run. -/
def CapitalRun.lower? (r : CapitalRun) (n : Nat) : Option Nat :=
  if r.first ≤ n ∧ n ≤ r.last ∧ (n - r.first) % r.step = 0 then some (r.image + (n - r.first))
  else none

/-- The small letters of a character taken alone. The dotted capital I is the only one with two. -/
def lowerChar (c : Char) : List Char :=
  if c.toNat < 0x80 then [c.toLower]
  else if c = '\u0130' then ['i', '\u0307']
  else [((capitalRuns.findSome? (·.lower? c.toNat)).map Char.ofNat).getD c]

/-- Whether the first character that is not stepped over is cased. -/
def meetsCased (cs : List Char) : Bool :=
  ((cs.dropWhile isCaseIgnorable).head?).any isCased

/-- The small letters of a text. `before` is what was read already, last character first: a capital
sigma that ends a word, with a cased letter before it and none after it, has a form of its own. -/
def lowerFrom (before : List Char) : List Char → List Char
  | [] => []
  | c :: cs =>
    (if c = 'Σ' then [if meetsCased before && !meetsCased cs then 'ς' else 'σ'] else lowerChar c)
      ++ lowerFrom (c :: before) cs

/-- The text in small letters. -/
def lower (cs : List Char) : List Char :=
  lowerFrom [] cs

/-- The string with the capital letters of ASCII made small, and nothing else changed. -/
def lowerAscii (s : String) : String :=
  String.ofList (s.toList.map Char.toLower)

end ApiPages.Text
