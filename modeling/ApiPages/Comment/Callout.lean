import ApiPages.Comment.Basic
import ApiPages.Text.Blank

/-!
# Callouts

A callout is a list item of a comment that speaks of a parameter, of the return value or of thrown
errors. Its word may be written in capitals. All functions here read a line without the blanks at
its ends.
-/

namespace ApiPages

/-- A line of a comment that is a callout. -/
inductive Callout where
  /-- The head of a list of parameters. -/
  | parameterList
  | parameter (p : Parameter)
  | returns (text : String)
  | throws (text : String)
deriving DecidableEq, Repr

namespace Callout

open Text

/-- Whether a character is a small letter or the capital of it; the long s is a form of `s`. -/
def isLetter (letter c : Char) : Bool :=
  c.toLower == letter || (letter == 's' && c == 'ſ')

/-- The text after a word that it begins with; the word is given in small letters. -/
def afterWord? : List Char → List Char → Option (List Char)
  | [], cs => some cs
  | _ :: _, [] => none
  | letter :: word, c :: cs => if isLetter letter c then afterWord? word cs else none

/-- The text of a list item. -/
def item? : List Char → Option (List Char)
  | [] => none
  | c :: cs => if c = '-' ∨ c = '*' ∨ c = '+' then some (dropBlankStart cs) else none

/-- The text after a colon, which blanks may precede. -/
def afterColon? (cs : List Char) : Option (List Char) :=
  match dropBlankStart cs with
  | ':' :: rest => some (dropBlanks rest)
  | _ => none

/-- Whether a parameter's name may hold the character. -/
def isNameChar (c : Char) : Bool :=
  !isBlank c && c != ':'

/-- A name, a colon and a description. -/
def named? (cs : List Char) : Option Parameter :=
  let name := cs.takeWhile isNameChar
  if name.isEmpty then none
  else (afterColon? (cs.dropWhile isNameChar)).map fun description =>
    ⟨String.ofList name, String.ofList description⟩

/-- The head of a list of parameters: the word and a colon, and nothing after it. -/
def parameterList? (item : List Char) : Option Callout :=
  ((afterWord? "parameters".toList item).bind afterColon?).bind fun rest =>
    if rest.isEmpty then some .parameterList else none

/-- A callout for one parameter: the word, blanks, then the name and the description. -/
def parameter? (item : List Char) : Option Callout :=
  (afterWord? "parameter".toList item).bind fun rest =>
    if rest.head?.any isBlank then (named? (dropBlankStart rest)).map .parameter else none

/-- A callout for the return value, in the singular or the plural. -/
def returns? (item : List Char) : Option Callout :=
  (afterWord? "return".toList item).bind fun rest =>
    (afterColon? ((afterWord? ['s'] rest).getD rest)).map fun text => .returns (String.ofList text)

/-- A callout for thrown errors. -/
def throws? (item : List Char) : Option Callout :=
  ((afterWord? "throws".toList item).bind afterColon?).map fun text => .throws (String.ofList text)

/-- The callout that a line is, if it is one. -/
def ofLine? (line : List Char) : Option Callout :=
  (item? line).bind fun item =>
    (parameterList? item).or ((parameter? item).or ((returns? item).or (throws? item)))

/-- The entry of a parameter list that a line is, if it is one. -/
def entry? (line : List Char) : Option Parameter :=
  (item? line).bind named?

end Callout

end ApiPages
