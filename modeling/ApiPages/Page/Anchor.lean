import ApiPages.Text.Blank
import ApiPages.Text.Letters

/-!
# Anchors

The anchor of a heading is its text in small letters, without punctuation and with hyphens for
spaces. A heading whose text was met before in the document gets a number after that.
-/

namespace ApiPages

/-- What an anchor keeps of a character. -/
def slugChar? (c : Char) : Option Char :=
  if c = ' ' then some '-'
  else if Text.isAlphanumeric c ∨ c = '-' ∨ c = '_' then some c else none

/-- The anchor of a heading by itself. -/
def slug (heading : String) : String :=
  String.ofList ((Text.lower (Text.dropBlanks heading.toList)).filterMap slugChar?)

/-- The anchors of a document so far: for each heading, its anchor before it was numbered. -/
structure Anchors where
  slugs : List String

namespace Anchors

/-- The anchors of a document without headings. -/
def empty : Anchors :=
  ⟨[]⟩

/-- The anchor of the next heading, and the anchors with it. -/
def claim (a : Anchors) (heading : String) : String × Anchors :=
  let s := slug heading
  let before := a.slugs.count s
  (if before = 0 then s else s ++ "-" ++ toString before, ⟨s :: a.slugs⟩)

/-- The anchors of the next headings, and the anchors with them. -/
def claimAll (a : Anchors) : List String → List String × Anchors
  | [] => ([], a)
  | heading :: rest =>
    let (anchor, a) := a.claim heading
    let (anchors, a) := a.claimAll rest
    (anchor :: anchors, a)

end Anchors

end ApiPages
